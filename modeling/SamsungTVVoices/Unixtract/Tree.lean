/-
The syntax of upgrade trees, and what `parse_blob_1_9` accepts.

A descriptor has a header with a size, but only the descriptors that the parser does not
implement are skipped by it; the others are as long as their fields, whatever size they name.
The value of a tree is read off the lists of its names, salts and versions, of which the last
ones count.
-/
import SamsungTVVoices.Unixtract.Ouith

open FixedDigits
open SamsungTVVoices.Driver (PyString)

namespace SamsungTVVoices.Unixtract

/-! ### Syntax -/

/-- What a descriptor says about itself besides its tag. -/
structure Head where
  flag : ℕ
  size : ℕ
deriving DecidableEq, Repr

namespace Head

def Fits (h : Head) : Prop := h.flag < 2 ^ 8 ∧ h.size < 2 ^ 32

instance (h : Head) : Decidable h.Fits := inferInstanceAs (Decidable (_ ∧ _))

def encode (h : Head) (tag : ℕ) : Bytes := leBytes 1 h.flag ++ leBytes 4 h.size ++ leBytes 4 tag

end Head

/-- What stands behind the flag of a string. -/
def encodeString (s : Bytes) : Bytes := leBytes 1 s.length ++ s

/-- The body of a descriptor that is skipped. -/
def SkipFits (h : Head) (body : Bytes) : Prop := 4 ≤ h.size ∧ body.length = h.size - 4

instance (h : Head) (body : Bytes) : Decidable (SkipFits h body) :=
  inferInstanceAs (Decidable (_ ∧ _))

/-- A subdescriptor of `OUDataProcessingDesc`. -/
inductive ProcessingDesc where
  | crc32 (h : Head) (flag crc : ℕ)
  | rsa (h : Head) (flag publicKeyId : ℕ) (signature : Bytes)
  | aes (h : Head) (flag : ℕ) (salt : Bytes) (processedSize : ℕ)
  | other (h : Head) (tag : ℕ) (body : Bytes)
deriving DecidableEq, Repr

namespace ProcessingDesc

def encode : ProcessingDesc → Bytes
  | crc32 h flag crc => h.encode 0x12 ++ leBytes 1 flag ++ leBytes 4 crc
  | rsa h flag publicKeyId signature =>
      h.encode 0x10 ++ leBytes 1 flag ++ leBytes 4 publicKeyId ++ leBytes 2 signature.length ++
        signature
  | aes h flag salt processedSize =>
      h.encode 0x0E ++ leBytes 1 flag ++ encodeString salt ++ leBytes 8 processedSize
  | other h tag body => h.encode tag ++ body

def Valid : ProcessingDesc → Prop
  | crc32 h flag crc => h.Fits ∧ flag < 2 ^ 8 ∧ crc < 2 ^ 32
  | rsa h flag publicKeyId signature =>
      h.Fits ∧ flag < 2 ^ 8 ∧ publicKeyId < 2 ^ 32 ∧ signature.length < 2 ^ 16
  | aes h flag salt processedSize =>
      h.Fits ∧ flag < 2 ^ 8 ∧ salt.length < 2 ^ 8 ∧ processedSize < 2 ^ 64
  | other h tag body =>
      h.Fits ∧ tag < 2 ^ 32 ∧ tag ≠ 0x12 ∧ tag ≠ 0x10 ∧ tag ≠ 0x0E ∧ SkipFits h body

instance : DecidablePred Valid
  | crc32 .. | rsa .. | aes .. | other .. => inferInstanceAs (Decidable (_ ∧ _))

/-- The salts that the descriptor names. -/
def salts : ProcessingDesc → List Bytes
  | aes _ _ salt _ => [salt]
  | crc32 .. | rsa .. | other .. => []

end ProcessingDesc

/-- A subdescriptor of `OUUpgradeItemDesc`. -/
inductive ItemDesc where
  | partitionVersion (h : Head) (flag : ℕ) (name : Bytes)
  | dataProcessing (h : Head) (flag : ℕ) (descs : List ProcessingDesc)
  | groupInfo (h : Head) (flag groupId : ℕ)
  | other (h : Head) (tag : ℕ) (body : Bytes)
deriving DecidableEq, Repr

namespace ItemDesc

def encode : ItemDesc → Bytes
  | partitionVersion h flag name => h.encode 0x0A ++ leBytes 1 flag ++ encodeString name
  | dataProcessing h flag descs =>
      h.encode 0x07 ++ leBytes 1 flag ++ leBytes 4 descs.length ++
        descs.flatMap ProcessingDesc.encode
  | groupInfo h flag groupId => h.encode 0x13 ++ leBytes 1 flag ++ leBytes 4 groupId
  | other h tag body => h.encode tag ++ body

def Valid : ItemDesc → Prop
  | partitionVersion h flag name => h.Fits ∧ flag < 2 ^ 8 ∧ name.length < 2 ^ 8
  | dataProcessing h flag descs =>
      h.Fits ∧ flag < 2 ^ 8 ∧ descs.length < 2 ^ 32 ∧ ∀ d ∈ descs, d.Valid
  | groupInfo h flag groupId => h.Fits ∧ flag < 2 ^ 8 ∧ groupId < 2 ^ 32
  | other h tag body =>
      h.Fits ∧ tag < 2 ^ 32 ∧ tag ≠ 0x0A ∧ tag ≠ 0x07 ∧ tag ≠ 0x13 ∧ SkipFits h body

instance : DecidablePred Valid
  | partitionVersion .. | dataProcessing .. | groupInfo .. | other .. =>
      inferInstanceAs (Decidable (_ ∧ _))

/-- The names that the descriptor gives. -/
def names : ItemDesc → List PyString
  | partitionVersion _ _ name => [stringFromBytes name]
  | dataProcessing .. | groupInfo .. | other .. => []

/-- The salts that the descriptor names. -/
def salts : ItemDesc → List Bytes
  | dataProcessing _ _ descs => descs.flatMap ProcessingDesc.salts
  | partitionVersion .. | groupInfo .. | other .. => []

end ItemDesc

/-- A subdescriptor of `OUGroupDesc`.  The version of the image may have a byte of padding. -/
inductive GroupDesc where
  | imageVersion (h : Head) (flag : ℕ) (name : Bytes) (pad : Option ℕ) (majorVer minorVer : ℕ)
  | deviceType (h : Head) (flag : ℕ) (value : Bytes)
  | other (h : Head) (tag : ℕ) (body : Bytes)
deriving DecidableEq, Repr

namespace GroupDesc

def encode : GroupDesc → Bytes
  | imageVersion h flag name pad majorVer minorVer =>
      h.encode 0x19 ++ leBytes 1 flag ++ encodeString name ++ pad.elim [] (leBytes 1) ++
        leBytes 2 majorVer ++ leBytes 2 minorVer
  | deviceType h flag value => h.encode 0x3d ++ leBytes 1 flag ++ encodeString value
  | other h tag body => h.encode tag ++ body

/-- The padding is there exactly if the size of the descriptor says so. -/
def PadFits (checks : Bool) (h : Head) (name : Bytes) (pad : Option ℕ) : Prop :=
  (checks → name.length + 4 ≤ h.size) ∧ (pad.isSome ↔ h.size = name.length + 11) ∧
    ∀ n ∈ pad, n < 2 ^ 8

instance (checks : Bool) (h : Head) (name : Bytes) (pad : Option ℕ) :
    Decidable (PadFits checks h name pad) := inferInstanceAs (Decidable (_ ∧ _))

def Valid (checks : Bool) : GroupDesc → Prop
  | imageVersion h flag name pad majorVer minorVer =>
      h.Fits ∧ flag < 2 ^ 8 ∧ name.length < 2 ^ 8 ∧ PadFits checks h name pad ∧
        majorVer < 2 ^ 16 ∧ minorVer < 2 ^ 16
  | deviceType h flag value => h.Fits ∧ flag < 2 ^ 8 ∧ value.length < 2 ^ 8
  | other h tag body => h.Fits ∧ tag < 2 ^ 32 ∧ tag ≠ 0x19 ∧ tag ≠ 0x3d ∧ SkipFits h body

instance (checks : Bool) : DecidablePred (Valid checks)
  | imageVersion .. | deviceType .. | other .. => inferInstanceAs (Decidable (_ ∧ _))

/-- The versions that the descriptor gives. -/
def versions : GroupDesc → List ImageVersion
  | imageVersion _ _ name _ majorVer minorVer => [⟨name, majorVer, minorVer⟩]
  | deviceType .. | other .. => []

end GroupDesc

/-- A top level descriptor. -/
inductive TopDesc where
  | upgradeItem (h : Head) (flag itemId unkFlag originalSize processedSize unk : ℕ)
      (descs : List ItemDesc)
  | group (h : Head) (flag groupId : ℕ) (descs : List GroupDesc)
  | secureDowngrade (h : Head) (flag date unk1 unk2 : ℕ)
  | baseVersion (h : Head) (flag majorVer minorVer : ℕ)
  | metadata (h : Head) (flag : ℕ) (name value : Bytes)
deriving DecidableEq, Repr

namespace TopDesc

def encode : TopDesc → Bytes
  | upgradeItem h flag itemId unkFlag originalSize processedSize unk descs =>
      h.encode 0x01 ++ leBytes 1 flag ++ leBytes 4 itemId ++ leBytes 1 unkFlag ++
        leBytes 8 originalSize ++ leBytes 8 processedSize ++ leBytes 2 unk ++
        leBytes 4 descs.length ++ descs.flatMap ItemDesc.encode
  | group h flag groupId descs =>
      h.encode 0x02 ++ leBytes 1 flag ++ leBytes 4 groupId ++ leBytes 4 descs.length ++
        descs.flatMap GroupDesc.encode
  | secureDowngrade h flag date unk1 unk2 =>
      h.encode 0x37 ++ leBytes 1 flag ++ leBytes 4 date ++ leBytes 4 unk1 ++ leBytes 4 unk2
  | baseVersion h flag majorVer minorVer =>
      h.encode 0x3A ++ leBytes 1 flag ++ leBytes 2 majorVer ++ leBytes 2 minorVer
  | metadata h flag name value =>
      h.encode 0x23 ++ leBytes 1 flag ++ encodeString name ++ encodeString value

def Valid (checks : Bool) : TopDesc → Prop
  | upgradeItem h flag itemId unkFlag originalSize processedSize unk descs =>
      h.Fits ∧ flag < 2 ^ 8 ∧ itemId < 2 ^ 32 ∧ unkFlag < 2 ^ 8 ∧ originalSize < 2 ^ 64 ∧
        processedSize < 2 ^ 64 ∧ unk < 2 ^ 16 ∧ descs.length < 2 ^ 32 ∧
        (∀ d ∈ descs, d.Valid) ∧ descs.flatMap ItemDesc.names ≠ []
  | group h flag groupId descs =>
      h.Fits ∧ flag < 2 ^ 8 ∧ groupId < 2 ^ 32 ∧ descs.length < 2 ^ 32 ∧
        ∀ d ∈ descs, d.Valid checks
  | secureDowngrade h flag date unk1 unk2 =>
      h.Fits ∧ flag < 2 ^ 8 ∧ date < 2 ^ 32 ∧ unk1 < 2 ^ 32 ∧ unk2 < 2 ^ 32
  | baseVersion h flag majorVer minorVer =>
      h.Fits ∧ flag < 2 ^ 8 ∧ majorVer < 2 ^ 16 ∧ minorVer < 2 ^ 16
  | metadata h flag name value =>
      h.Fits ∧ flag < 2 ^ 8 ∧ name.length < 2 ^ 8 ∧ value.length < 2 ^ 8

instance (checks : Bool) : DecidablePred (Valid checks)
  | upgradeItem .. | group .. | secureDowngrade .. | baseVersion .. | metadata .. =>
      inferInstanceAs (Decidable (_ ∧ _))

/-- The item of the descriptor, under its last name and with its last salt. -/
def items : TopDesc → List MSDItem
  | upgradeItem _ _ itemId _ _ _ _ descs =>
      (descs.flatMap ItemDesc.names).getLast?.toList.map fun name =>
        ⟨itemId, name, !(descs.flatMap ItemDesc.salts).isEmpty,
          (descs.flatMap ItemDesc.salts).getLast?⟩
  | group .. | secureDowngrade .. | baseVersion .. | metadata .. => []

/-- The versions that the descriptor gives. -/
def versions : TopDesc → List ImageVersion
  | group _ _ _ descs => descs.flatMap GroupDesc.versions
  | upgradeItem .. | secureDowngrade .. | baseVersion .. | metadata .. => []

end TopDesc

/-- An upgrade tree with its signature.  Of the sizes that its descriptors name, only those of the
descriptors that are skipped and of image versions are looked at: any other one may be wrong. -/
structure Ouith where
  publicKeyId : ℕ
  signature : Bytes
  descs : List TopDesc
deriving DecidableEq, Repr

namespace Ouith

def encode (t : Ouith) : Bytes :=
  leBytes 4 t.publicKeyId ++ leBytes 2 t.signature.length ++ t.signature ++ treeMagic ++
    leBytes 4 t.descs.length ++ t.descs.flatMap TopDesc.encode

def Valid (checks : Bool) (t : Ouith) : Prop :=
  t.publicKeyId < 2 ^ 32 ∧ t.signature.length < 2 ^ 16 ∧ t.descs.length < 2 ^ 32 ∧
    ∀ d ∈ t.descs, d.Valid checks

instance (checks : Bool) (t : Ouith) : Decidable (t.Valid checks) :=
  inferInstanceAs (Decidable (_ ∧ _))

/-- The items of the tree. -/
def items (t : Ouith) : List MSDItem := t.descs.flatMap TopDesc.items

/-- The version of the image: the last one. -/
def version (t : Ouith) : Option ImageVersion := (t.descs.flatMap TopDesc.versions).getLast?

end Ouith

/-! ### Reading the fields -/

section Fields

variable {bs rest : Bytes} {n : ℕ} {s : Bytes}

@[simp] lemma u8_eq_ok : u8 bs = .ok (n, rest) ↔ n < 2 ^ 8 ∧ bs = leBytes 1 n ++ rest :=
  Reader.uint_eq_ok

@[simp] lemma u16_eq_ok : u16 bs = .ok (n, rest) ↔ n < 2 ^ 16 ∧ bs = leBytes 2 n ++ rest :=
  Reader.uint_eq_ok

@[simp] lemma u32_eq_ok : u32 bs = .ok (n, rest) ↔ n < 2 ^ 32 ∧ bs = leBytes 4 n ++ rest :=
  Reader.uint_eq_ok

@[simp] lemma u64_eq_ok : u64 bs = .ok (n, rest) ↔ n < 2 ^ 64 ∧ bs = leBytes 8 n ++ rest :=
  Reader.uint_eq_ok

@[simp] lemma readExact_eq_ok {size : ℕ} :
    readExact size bs = .ok (s, rest) ↔ s.length = size ∧ bs = s ++ rest :=
  Reader.bytes_eq_ok

lemma descriptorHeader_eq_ok {d : DescriptorHeader} :
    descriptorHeader bs = .ok (d, rest) ↔
      ∃ h : Head, h.Fits ∧ d.size = h.size ∧ d.tag < 2 ^ 32 ∧ bs = h.encode d.tag ++ rest := by
  simp only [descriptorHeader, Reader.bind_eq_ok, u8_eq_ok, u32_eq_ok, Reader.pure_eq_ok]
  constructor
  · rintro ⟨flag, _, ⟨hflag, rfl⟩, size, _, ⟨hsize, rfl⟩, tag, _, ⟨htag, rfl⟩, rfl, rfl⟩
    exact ⟨⟨flag, size⟩, ⟨hflag, hsize⟩, rfl, htag, by simp only [Head.encode, List.append_assoc]⟩
  · rintro ⟨h, ⟨hflag, hsize⟩, heq, htag, rfl⟩
    obtain ⟨size, tag⟩ := d
    obtain rfl : size = h.size := heq
    exact ⟨_, _, ⟨hflag, by simp only [Head.encode, List.append_assoc]⟩, _, _, ⟨hsize, rfl⟩,
      _, _, ⟨htag, rfl⟩, rfl, rfl⟩

lemma unimplemented_eq_ok {h : Head} {u : Unit} :
    unimplemented h.size bs = .ok (u, rest) ↔ ∃ body, SkipFits h body ∧ bs = body ++ rest := by
  rw [unimplemented]
  split
  · next hlt =>
      refine iff_of_false nofun ?_
      rintro ⟨body, ⟨hle, -⟩, -⟩
      exact absurd hlt (not_lt.2 hle)
  · next hle =>
      simp only [Reader.bind_eq_ok, readExact_eq_ok, Reader.pure_eq_ok]
      constructor
      · rintro ⟨body, _, ⟨hlength, rfl⟩, -, rfl⟩
        exact ⟨body, ⟨not_lt.1 hle, hlength⟩, rfl⟩
      · rintro ⟨body, ⟨-, hlength⟩, rfl⟩
        exact ⟨body, rest, ⟨hlength, rfl⟩, trivial, rfl⟩

lemma flagAndU32_eq_ok : flagAndU32 bs = .ok (n, rest) ↔
    ∃ flag, flag < 2 ^ 8 ∧ n < 2 ^ 32 ∧ bs = leBytes 1 flag ++ leBytes 4 n ++ rest := by
  simp only [flagAndU32, Reader.bind_eq_ok, u8_eq_ok, u32_eq_ok]
  constructor
  · rintro ⟨flag, _, ⟨hflag, rfl⟩, hn, rfl⟩
    exact ⟨flag, hflag, hn, (List.append_assoc _ _ _).symm⟩
  · rintro ⟨flag, hflag, hn, rfl⟩
    exact ⟨flag, _, ⟨hflag, List.append_assoc _ _ _⟩, hn, rfl⟩

lemma flagAndString_eq_ok : flagAndString bs = .ok (s, rest) ↔
    ∃ flag, flag < 2 ^ 8 ∧ s.length < 2 ^ 8 ∧ bs = leBytes 1 flag ++ encodeString s ++ rest := by
  simp only [flagAndString, Reader.bind_eq_ok, u8_eq_ok, readExact_eq_ok, encodeString]
  constructor
  · rintro ⟨flag, _, ⟨hflag, rfl⟩, _, _, ⟨hlen, rfl⟩, rfl, rfl⟩
    exact ⟨flag, hflag, hlen, by simp only [List.append_assoc]⟩
  · rintro ⟨flag, hflag, hlen, rfl⟩
    exact ⟨flag, _, ⟨hflag, by simp only [List.append_assoc]⟩, _, _, ⟨hlen, rfl⟩, rfl, rfl⟩

lemma ouRSAValidationDesc_eq_ok {u : Unit} : ouRSAValidationDesc bs = .ok (u, rest) ↔
    ∃ flag publicKeyId signature, flag < 2 ^ 8 ∧ publicKeyId < 2 ^ 32 ∧
      List.length signature < 2 ^ 16 ∧
      bs = leBytes 1 flag ++ leBytes 4 publicKeyId ++ leBytes 2 signature.length ++ signature ++
        rest := by
  simp only [ouRSAValidationDesc, Reader.bind_eq_ok, u8_eq_ok, u16_eq_ok, u32_eq_ok,
    readExact_eq_ok, Reader.pure_eq_ok]
  constructor
  · rintro ⟨flag, _, ⟨hflag, rfl⟩, key, _, ⟨hkey, rfl⟩, _, _, ⟨hsize, rfl⟩, signature, _,
      ⟨rfl, rfl⟩, -, rfl⟩
    exact ⟨flag, key, signature, hflag, hkey, hsize, by simp only [List.append_assoc]⟩
  · rintro ⟨flag, key, signature, hflag, hkey, hsize, rfl⟩
    exact ⟨flag, _, ⟨hflag, by simp only [List.append_assoc]⟩, key, _, ⟨hkey, rfl⟩, _, _,
      ⟨hsize, rfl⟩, signature, _, ⟨rfl, rfl⟩, trivial, rfl⟩

lemma ouAESEncryptionDesc_eq_ok {salt : Bytes} : ouAESEncryptionDesc bs = .ok (salt, rest) ↔
    ∃ flag processedSize, flag < 2 ^ 8 ∧ salt.length < 2 ^ 8 ∧ processedSize < 2 ^ 64 ∧
      bs = leBytes 1 flag ++ encodeString salt ++ leBytes 8 processedSize ++ rest := by
  simp only [ouAESEncryptionDesc, Reader.bind_eq_ok, u8_eq_ok, u64_eq_ok, readExact_eq_ok,
    Reader.pure_eq_ok, encodeString]
  constructor
  · rintro ⟨flag, _, ⟨hflag, rfl⟩, _, _, ⟨hlen, rfl⟩, _, _, ⟨rfl, rfl⟩, size, _, ⟨hsize, rfl⟩,
      rfl, rfl⟩
    exact ⟨flag, size, hflag, hlen, hsize, by simp only [List.append_assoc]⟩
  · rintro ⟨flag, size, hflag, hlen, hsize, rfl⟩
    exact ⟨flag, _, ⟨hflag, by simp only [List.append_assoc]⟩, _, _, ⟨hlen, rfl⟩, _, _,
      ⟨rfl, rfl⟩, size, _, ⟨hsize, rfl⟩, rfl, rfl⟩

lemma ouUpgradeItemDesc_eq_ok : ouUpgradeItemDesc bs = .ok (n, rest) ↔
    ∃ flag unkFlag originalSize processedSize unk, flag < 2 ^ 8 ∧ n < 2 ^ 32 ∧ unkFlag < 2 ^ 8 ∧
      originalSize < 2 ^ 64 ∧ processedSize < 2 ^ 64 ∧ unk < 2 ^ 16 ∧
      bs = leBytes 1 flag ++ leBytes 4 n ++ leBytes 1 unkFlag ++ leBytes 8 originalSize ++
        leBytes 8 processedSize ++ leBytes 2 unk ++ rest := by
  simp only [ouUpgradeItemDesc, Reader.bind_eq_ok, u8_eq_ok, u16_eq_ok, u32_eq_ok, u64_eq_ok,
    Reader.pure_eq_ok]
  constructor
  · rintro ⟨flag, _, ⟨hflag, rfl⟩, _, _, ⟨hid, rfl⟩, unkFlag, _, ⟨hunkFlag, rfl⟩, original, _,
      ⟨horiginal, rfl⟩, processed, _, ⟨hprocessed, rfl⟩, unk, _, ⟨hunk, rfl⟩, rfl, rfl⟩
    exact ⟨flag, unkFlag, original, processed, unk, hflag, hid, hunkFlag, horiginal, hprocessed,
      hunk, by simp only [List.append_assoc]⟩
  · rintro ⟨flag, unkFlag, original, processed, unk, hflag, hid, hunkFlag, horiginal, hprocessed,
      hunk, rfl⟩
    exact ⟨flag, _, ⟨hflag, by simp only [List.append_assoc]⟩, _, _, ⟨hid, rfl⟩, unkFlag, _,
      ⟨hunkFlag, rfl⟩, original, _, ⟨horiginal, rfl⟩, processed, _, ⟨hprocessed, rfl⟩, unk, _,
      ⟨hunk, rfl⟩, rfl, rfl⟩

/-- A step that reads a header first. -/
lemma header_bind_eq_ok {α : Type} {f : DescriptorHeader → BinReader α} {a : α} :
    (descriptorHeader >>= f) bs = .ok (a, rest) ↔
      ∃ (h : Head) (tag : ℕ) (mid : Bytes), h.Fits ∧ tag < 2 ^ 32 ∧ bs = h.encode tag ++ mid ∧
        f ⟨h.size, tag⟩ mid = .ok (a, rest) := by
  simp only [Reader.bind_eq_ok, descriptorHeader_eq_ok]
  constructor
  · rintro ⟨⟨_, tag⟩, mid, ⟨h, hh, rfl, htag, rfl⟩, hf⟩
    exact ⟨h, tag, mid, hh, htag, rfl, hf⟩
  · rintro ⟨h, tag, mid, hh, htag, rfl, hf⟩
    exact ⟨⟨h.size, tag⟩, mid, ⟨h, hh, rfl, htag, rfl⟩, hf⟩

end Fields

/-! ### Reading the descriptors -/

namespace ItemState

/-- The state after a descriptor with these names and salts: the last ones count. -/
def after (s : ItemState) (names : List PyString) (salts : List Bytes) : ItemState :=
  ⟨names.getLast?.or s.name, s.aesEncryption || !salts.isEmpty, salts.getLast?.or s.aesSalt⟩

@[simp] lemma after_nil (s : ItemState) : s.after [] [] = s := by simp [after]

lemma after_salt (s : ItemState) (salt : Bytes) :
    s.after [] [salt] = { s with aesEncryption := true, aesSalt := some salt } := by
  simp [after]

lemma after_name (s : ItemState) (name : PyString) :
    s.after [name] [] = { s with name := some name } := by
  simp [after]

lemma after_append (s : ItemState) (names names' : List PyString) (salts salts' : List Bytes) :
    (s.after names salts).after names' salts' = s.after (names ++ names') (salts ++ salts') := by
  have hempty : (!(salts ++ salts').isEmpty) = (!salts.isEmpty || !salts'.isEmpty) := by
    cases salts <;> rfl
  simp only [after, List.getLast?_append, Option.or_assoc, Bool.or_assoc, hempty]

lemma foldl_after {τ : Type} (names : τ → List PyString) (salts : τ → List Bytes) (ts : List τ) :
    ∀ s : ItemState, ts.foldl (fun s t => s.after (names t) (salts t)) s =
      s.after (ts.flatMap names) (ts.flatMap salts) := by
  induction ts with
  | nil => exact fun s => s.after_nil.symm
  | cons t ts ih =>
      intro s
      rw [List.foldl_cons, ih, after_append, List.flatMap_cons, List.flatMap_cons]

/-- Only salts are added. -/
lemma foldl_salts {τ : Type} (s : ItemState) (salts : τ → List Bytes) (ts : List τ) :
    ts.foldl (fun s t => s.after [] (salts t)) s = s.after [] (ts.flatMap salts) := by
  rw [foldl_after (fun _ => []), List.flatMap_eq_nil_iff.2 fun _ _ => rfl]

end ItemState

lemma reads_processingStep (s : ItemState) : Reader.Reads (processingStep s) ProcessingDesc.Valid
    ProcessingDesc.encode (fun d => s.after [] d.salts) := by
  intro bs a rest
  rw [processingStep, header_bind_eq_ok]
  constructor
  · rintro ⟨h, tag, mid, hh, htag, rfl, hbody⟩
    dsimp only at hbody
    split_ifs at hbody with hcrc hrsa haes
    · subst hcrc
      obtain ⟨crc, hread, rfl⟩ := Reader.bind_pure_eq_ok.1 hbody
      obtain ⟨flag, hflag, hn, rfl⟩ := flagAndU32_eq_ok.1 hread
      exact ⟨.crc32 h flag crc, ⟨hh, hflag, hn⟩, s.after_nil,
        by simp only [ProcessingDesc.encode, List.append_assoc]⟩
    · subst hrsa
      obtain ⟨_, hread, rfl⟩ := Reader.bind_pure_eq_ok.1 hbody
      obtain ⟨flag, key, signature, hflag, hkey, hsize, rfl⟩ := ouRSAValidationDesc_eq_ok.1 hread
      exact ⟨.rsa h flag key signature, ⟨hh, hflag, hkey, hsize⟩, s.after_nil,
        by simp only [ProcessingDesc.encode, List.append_assoc]⟩
    · subst haes
      obtain ⟨salt, hread, rfl⟩ := Reader.bind_pure_eq_ok.1 hbody
      obtain ⟨flag, size, hflag, hlen, hsize, rfl⟩ := ouAESEncryptionDesc_eq_ok.1 hread
      exact ⟨.aes h flag salt size, ⟨hh, hflag, hlen, hsize⟩, s.after_salt salt,
        by simp only [ProcessingDesc.encode, List.append_assoc]⟩
    · obtain ⟨_, hread, rfl⟩ := Reader.bind_pure_eq_ok.1 hbody
      obtain ⟨body, hskip, rfl⟩ := unimplemented_eq_ok.1 hread
      exact ⟨.other h tag body, ⟨hh, htag, hcrc, hrsa, haes, hskip⟩, s.after_nil,
        by simp only [ProcessingDesc.encode, List.append_assoc]⟩
  · rintro ⟨d, hd, rfl, rfl⟩
    cases d with
    | crc32 h flag crc =>
        obtain ⟨hh, hflag, hn⟩ := hd
        refine ⟨h, 0x12, leBytes 1 flag ++ leBytes 4 crc ++ rest, hh, by norm_num,
          by simp only [ProcessingDesc.encode, List.append_assoc], ?_⟩
        rw [if_pos rfl]
        exact Reader.bind_pure_eq_ok.2
          ⟨crc, flagAndU32_eq_ok.2 ⟨flag, hflag, hn, rfl⟩, s.after_nil.symm⟩
    | rsa h flag key signature =>
        obtain ⟨hh, hflag, hkey, hsize⟩ := hd
        refine ⟨h, 0x10, leBytes 1 flag ++ leBytes 4 key ++ leBytes 2 signature.length ++
          signature ++ rest, hh, by norm_num,
          by simp only [ProcessingDesc.encode, List.append_assoc], ?_⟩
        rw [if_neg (by norm_num), if_pos rfl]
        exact Reader.bind_pure_eq_ok.2
          ⟨(), ouRSAValidationDesc_eq_ok.2 ⟨flag, key, signature, hflag, hkey, hsize, rfl⟩,
            s.after_nil.symm⟩
    | aes h flag salt size =>
        obtain ⟨hh, hflag, hlen, hsize⟩ := hd
        refine ⟨h, 0x0E, leBytes 1 flag ++ encodeString salt ++ leBytes 8 size ++ rest, hh,
          by norm_num, by simp only [ProcessingDesc.encode, List.append_assoc], ?_⟩
        rw [if_neg (by norm_num), if_neg (by norm_num), if_pos rfl]
        exact Reader.bind_pure_eq_ok.2
          ⟨salt, ouAESEncryptionDesc_eq_ok.2 ⟨flag, size, hflag, hlen, hsize, rfl⟩,
            (s.after_salt salt).symm⟩
    | other h tag body =>
        obtain ⟨hh, htag, hcrc, hrsa, haes, hskip⟩ := hd
        refine ⟨h, tag, body ++ rest, hh, htag,
          by simp only [ProcessingDesc.encode, List.append_assoc], ?_⟩
        rw [if_neg hcrc, if_neg hrsa, if_neg haes]
        exact Reader.bind_pure_eq_ok.2
          ⟨(), unimplemented_eq_ok.2 ⟨body, hskip, rfl⟩, s.after_nil.symm⟩

lemma reads_itemStep (s : ItemState) : Reader.Reads (itemStep s) ItemDesc.Valid ItemDesc.encode
    (fun d => s.after d.names d.salts) := by
  intro bs a rest
  rw [itemStep, header_bind_eq_ok]
  constructor
  · rintro ⟨h, tag, mid, hh, htag, rfl, hbody⟩
    dsimp only at hbody
    split_ifs at hbody with hname hdata hgroup
    · subst hname
      obtain ⟨name, hread, rfl⟩ := Reader.bind_pure_eq_ok.1 hbody
      obtain ⟨flag, hflag, hlen, rfl⟩ := flagAndString_eq_ok.1 hread
      exact ⟨.partitionVersion h flag name, ⟨hh, hflag, hlen⟩, s.after_name _,
        by simp only [ItemDesc.encode, List.append_assoc]⟩
    · subst hdata
      obtain ⟨count, mid, hread, hloop⟩ := Reader.bind_eq_ok.1 hbody
      obtain ⟨flag, hflag, hcount, rfl⟩ := flagAndU32_eq_ok.1 hread
      obtain ⟨descs, ⟨rfl, hdescs⟩, rfl, rfl⟩ :=
        (Reader.Reads.iterate reads_processingStep _ s _ _ _).1 hloop
      refine ⟨.dataProcessing h flag descs, ⟨hh, hflag, hcount, hdescs⟩, ?_,
        by simp only [ItemDesc.encode, List.append_assoc]⟩
      exact (s.foldl_salts _ _).symm
    · subst hgroup
      obtain ⟨id, hread, rfl⟩ := Reader.bind_pure_eq_ok.1 hbody
      obtain ⟨flag, hflag, hn, rfl⟩ := flagAndU32_eq_ok.1 hread
      exact ⟨.groupInfo h flag id, ⟨hh, hflag, hn⟩, s.after_nil,
        by simp only [ItemDesc.encode, List.append_assoc]⟩
    · obtain ⟨_, hread, rfl⟩ := Reader.bind_pure_eq_ok.1 hbody
      obtain ⟨body, hskip, rfl⟩ := unimplemented_eq_ok.1 hread
      exact ⟨.other h tag body, ⟨hh, htag, hname, hdata, hgroup, hskip⟩, s.after_nil,
        by simp only [ItemDesc.encode, List.append_assoc]⟩
  · rintro ⟨d, hd, rfl, rfl⟩
    cases d with
    | partitionVersion h flag name =>
        obtain ⟨hh, hflag, hlen⟩ := hd
        refine ⟨h, 0x0A, leBytes 1 flag ++ encodeString name ++ rest, hh, by norm_num,
          by simp only [ItemDesc.encode, List.append_assoc], ?_⟩
        rw [if_pos rfl]
        exact Reader.bind_pure_eq_ok.2
          ⟨name, flagAndString_eq_ok.2 ⟨flag, hflag, hlen, rfl⟩, (s.after_name _).symm⟩
    | dataProcessing h flag descs =>
        obtain ⟨hh, hflag, hcount, hdescs⟩ := hd
        refine ⟨h, 0x07, leBytes 1 flag ++ leBytes 4 descs.length ++
          (descs.flatMap ProcessingDesc.encode ++ rest), hh, by norm_num,
          by simp only [ItemDesc.encode, List.append_assoc], ?_⟩
        rw [if_neg (by norm_num), if_pos rfl]
        exact Reader.bind_eq_ok.2 ⟨descs.length, _,
          flagAndU32_eq_ok.2 ⟨flag, hflag, hcount, rfl⟩,
          (Reader.Reads.iterate reads_processingStep _ s _ _ _).2
            ⟨descs, ⟨rfl, hdescs⟩, s.foldl_salts _ _, rfl⟩⟩
    | groupInfo h flag id =>
        obtain ⟨hh, hflag, hn⟩ := hd
        refine ⟨h, 0x13, leBytes 1 flag ++ leBytes 4 id ++ rest, hh, by norm_num,
          by simp only [ItemDesc.encode, List.append_assoc], ?_⟩
        rw [if_neg (by norm_num), if_neg (by norm_num), if_pos rfl]
        exact Reader.bind_pure_eq_ok.2
          ⟨id, flagAndU32_eq_ok.2 ⟨flag, hflag, hn, rfl⟩, s.after_nil.symm⟩
    | other h tag body =>
        obtain ⟨hh, htag, hname, hdata, hgroup, hskip⟩ := hd
        refine ⟨h, tag, body ++ rest, hh, htag,
          by simp only [ItemDesc.encode, List.append_assoc], ?_⟩
        rw [if_neg hname, if_neg hdata, if_neg hgroup]
        exact Reader.bind_pure_eq_ok.2
          ⟨(), unimplemented_eq_ok.2 ⟨body, hskip, rfl⟩, s.after_nil.symm⟩

lemma hasPadding_eq_ok {checks : Bool} {h : Head} {name bs rest : Bytes} {b : Bool} :
    hasPadding checks h.size name.length bs = .ok (b, rest) ↔
      (checks → name.length + 4 ≤ h.size) ∧ (b = true ↔ h.size = name.length + 11) ∧ bs = rest := by
  rw [hasPadding]
  split_ifs with hle hchecks
  · have hseven : h.size - name.length - 4 = 7 ↔ h.size = name.length + 11 := by omega
    rw [Reader.pure_eq_ok]
    constructor
    · rintro ⟨rfl, rfl⟩
      exact ⟨fun _ => hle, by rw [decide_eq_true_iff, hseven], rfl⟩
    · rintro ⟨-, hb, rfl⟩
      exact ⟨by rw [Bool.eq_iff_iff, decide_eq_true_iff, hseven, hb], rfl⟩
  · exact iff_of_false nofun fun h => hle (h.1 hchecks)
  · have hseven : ¬ h.size = name.length + 11 := by omega
    rw [Reader.pure_eq_ok]
    constructor
    · rintro ⟨rfl, rfl⟩
      exact ⟨fun hc => absurd hc hchecks, iff_of_false Bool.false_ne_true hseven, rfl⟩
    · rintro ⟨-, hb, rfl⟩
      exact ⟨(Bool.eq_false_iff.2 fun h => hseven (hb.1 h)).symm, rfl⟩

/-- The padding, if the size of the descriptor says that it is there. -/
lemma padding_eq_ok {checks : Bool} {h : Head} {name bs rest : Bytes} {u : Unit} :
    padding checks h.size name.length bs = .ok (u, rest) ↔
      ∃ pad, GroupDesc.PadFits checks h name pad ∧ bs = pad.elim [] (leBytes 1) ++ rest := by
  rw [padding, Reader.bind_eq_ok]
  constructor
  · rintro ⟨b, mid, hpad, hread⟩
    obtain ⟨hchecks, hb, rfl⟩ := hasPadding_eq_ok.1 hpad
    split at hread
    · next htrue =>
        obtain ⟨pad, hread, -⟩ := Reader.bind_pure_eq_ok.1 hread
        obtain ⟨hlt, rfl⟩ := u8_eq_ok.1 hread
        refine ⟨some pad, ⟨hchecks, iff_of_true rfl (hb.1 htrue), ?_⟩, rfl⟩
        rintro n ⟨⟩
        exact hlt
    · next hfalse =>
        obtain ⟨-, rfl⟩ := Reader.pure_eq_ok.1 hread
        exact ⟨none, ⟨hchecks, iff_of_false Bool.false_ne_true fun h => hfalse (hb.2 h), nofun⟩,
          rfl⟩
  · rintro ⟨pad, ⟨hchecks, hsize, hlt⟩, rfl⟩
    refine ⟨pad.isSome, _, hasPadding_eq_ok.2 ⟨hchecks, hsize, rfl⟩, ?_⟩
    cases pad with
    | none => exact Reader.pure_eq_ok.2 ⟨rfl, rfl⟩
    | some n => exact Reader.bind_pure_eq_ok.2 ⟨n, u8_eq_ok.2 ⟨hlt n rfl, rfl⟩, rfl⟩

lemma ouSWImageVersionDesc_eq_ok {checks : Bool} {h : Head} {bs rest : Bytes}
    {version : ImageVersion} :
    ouSWImageVersionDesc checks h.size bs = .ok (version, rest) ↔
      ∃ flag pad, flag < 2 ^ 8 ∧ version.name.length < 2 ^ 8 ∧
        GroupDesc.PadFits checks h version.name pad ∧ version.majorVer < 2 ^ 16 ∧
        version.minorVer < 2 ^ 16 ∧
        bs = leBytes 1 flag ++ encodeString version.name ++ pad.elim [] (leBytes 1) ++
          leBytes 2 version.majorVer ++ leBytes 2 version.minorVer ++ rest := by
  simp only [ouSWImageVersionDesc, Reader.bind_eq_ok, u8_eq_ok, u16_eq_ok, readExact_eq_ok,
    Reader.pure_eq_ok, encodeString]
  constructor
  · rintro ⟨flag, _, ⟨hflag, rfl⟩, _, _, ⟨hlen, rfl⟩, name, _, ⟨rfl, rfl⟩, _, _, hpadding, major,
      _, ⟨hmajor, rfl⟩, minor, _, ⟨hminor, rfl⟩, rfl, rfl⟩
    obtain ⟨pad, hpad, rfl⟩ := padding_eq_ok.1 hpadding
    exact ⟨flag, pad, hflag, hlen, hpad, hmajor, hminor, by simp only [List.append_assoc]⟩
  · rintro ⟨flag, pad, hflag, hlen, hpad, hmajor, hminor, rfl⟩
    exact ⟨flag, _, ⟨hflag, by simp only [List.append_assoc]⟩, _, _, ⟨hlen, rfl⟩, version.name, _,
      ⟨rfl, rfl⟩, (), _, padding_eq_ok.2 ⟨pad, hpad, rfl⟩, version.majorVer, _, ⟨hmajor, rfl⟩,
      version.minorVer, _, ⟨hminor, rfl⟩, rfl, rfl⟩

lemma reads_groupStep (checks : Bool) (info : Option ImageVersion) : Reader.Reads
    (groupStep checks info) (GroupDesc.Valid checks) GroupDesc.encode
    (fun d => d.versions.getLast?.or info) := by
  intro bs a rest
  rw [groupStep, header_bind_eq_ok]
  constructor
  · rintro ⟨h, tag, mid, hh, htag, rfl, hbody⟩
    dsimp only at hbody
    split_ifs at hbody with himage hdevice
    · subst himage
      obtain ⟨⟨name, major, minor⟩, hread, rfl⟩ := Reader.bind_pure_eq_ok.1 hbody
      obtain ⟨flag, pad, hflag, hlen, hpad, hmajor, hminor, rfl⟩ :=
        ouSWImageVersionDesc_eq_ok.1 hread
      exact ⟨.imageVersion h flag name pad major minor,
        ⟨hh, hflag, hlen, hpad, hmajor, hminor⟩, rfl,
        by simp only [GroupDesc.encode, List.append_assoc]⟩
    · subst hdevice
      obtain ⟨value, hread, rfl⟩ := Reader.bind_pure_eq_ok.1 hbody
      obtain ⟨flag, hflag, hlen, rfl⟩ := flagAndString_eq_ok.1 hread
      exact ⟨.deviceType h flag value, ⟨hh, hflag, hlen⟩, rfl,
        by simp only [GroupDesc.encode, List.append_assoc]⟩
    · obtain ⟨_, hread, rfl⟩ := Reader.bind_pure_eq_ok.1 hbody
      obtain ⟨body, hskip, rfl⟩ := unimplemented_eq_ok.1 hread
      exact ⟨.other h tag body, ⟨hh, htag, himage, hdevice, hskip⟩, rfl,
        by simp only [GroupDesc.encode, List.append_assoc]⟩
  · rintro ⟨d, hd, rfl, rfl⟩
    cases d with
    | imageVersion h flag name pad major minor =>
        obtain ⟨hh, hflag, hlen, hpad, hmajor, hminor⟩ := hd
        refine ⟨h, 0x19, leBytes 1 flag ++ encodeString name ++ pad.elim [] (leBytes 1) ++
          leBytes 2 major ++ leBytes 2 minor ++ rest, hh, by norm_num,
          by simp only [GroupDesc.encode, List.append_assoc], ?_⟩
        rw [if_pos rfl]
        exact Reader.bind_pure_eq_ok.2 ⟨⟨name, major, minor⟩,
          ouSWImageVersionDesc_eq_ok.2 ⟨flag, pad, hflag, hlen, hpad, hmajor, hminor, rfl⟩, rfl⟩
    | deviceType h flag value =>
        obtain ⟨hh, hflag, hlen⟩ := hd
        refine ⟨h, 0x3d, leBytes 1 flag ++ encodeString value ++ rest, hh, by norm_num,
          by simp only [GroupDesc.encode, List.append_assoc], ?_⟩
        rw [if_neg (by norm_num), if_pos rfl]
        exact Reader.bind_pure_eq_ok.2
          ⟨value, flagAndString_eq_ok.2 ⟨flag, hflag, hlen, rfl⟩, rfl⟩
    | other h tag body =>
        obtain ⟨hh, htag, himage, hdevice, hskip⟩ := hd
        refine ⟨h, tag, body ++ rest, hh, htag,
          by simp only [GroupDesc.encode, List.append_assoc], ?_⟩
        rw [if_neg himage, if_neg hdevice]
        exact Reader.bind_pure_eq_ok.2 ⟨(), unimplemented_eq_ok.2 ⟨body, hskip, rfl⟩, rfl⟩

/-- Of versions the last one counts. -/
lemma foldl_versions {τ : Type} (versions : τ → List ImageVersion) (ts : List τ) :
    ∀ info : Option ImageVersion,
      ts.foldl (fun info t => (versions t).getLast?.or info) info =
        (ts.flatMap versions).getLast?.or info := by
  induction ts with
  | nil => exact fun _ => rfl
  | cons t ts ih =>
      intro info
      rw [List.foldl_cons, ih, List.flatMap_cons, List.getLast?_append, Option.or_assoc]

/-- What the loop over an upgrade item adds to the items. -/
lemma items_upgradeItem {descs : List ItemDesc} {name : PyString}
    (hname : (ItemState.after {} (descs.flatMap ItemDesc.names)
      (descs.flatMap ItemDesc.salts)).name = some name) (h : Head)
    (flag itemId unkFlag originalSize processedSize unk : ℕ) :
    (TopDesc.upgradeItem h flag itemId unkFlag originalSize processedSize unk descs).items =
      [⟨itemId, name,
        (ItemState.after {} (descs.flatMap ItemDesc.names)
          (descs.flatMap ItemDesc.salts)).aesEncryption,
        (ItemState.after {} (descs.flatMap ItemDesc.names)
          (descs.flatMap ItemDesc.salts)).aesSalt⟩] := by
  simp only [ItemState.after, Option.or_none, Bool.false_or] at hname ⊢
  simp only [TopDesc.items, hname, Option.toList_some, List.map_cons, List.map_nil]

lemma reads_topLevelStep (checks : Bool) (s : List MSDItem × Option ImageVersion) : Reader.Reads
    (topLevelStep checks s) (TopDesc.Valid checks) TopDesc.encode
    (fun d => (s.1 ++ d.items, d.versions.getLast?.or s.2)) := by
  intro bs a rest
  rw [topLevelStep, header_bind_eq_ok]
  constructor
  · rintro ⟨h, tag, mid, hh, htag, rfl, hbody⟩
    dsimp only at hbody
    split_ifs at hbody with hitem hgroup hdowngrade hbase hmetadata
    · subst hitem
      obtain ⟨id, _, hread, hcounted⟩ := Reader.bind_eq_ok.1 hbody
      obtain ⟨flag, unkFlag, original, processed, unk, hflag, hid, hunkFlag, horiginal,
        hprocessed, hunk, rfl⟩ := ouUpgradeItemDesc_eq_ok.1 hread
      obtain ⟨_, _, hn, hlooped⟩ := Reader.bind_eq_ok.1 hcounted
      obtain ⟨hcount, rfl⟩ := u32_eq_ok.1 hn
      obtain ⟨_, _, hloop, hend⟩ := Reader.bind_eq_ok.1 hlooped
      obtain ⟨descs, ⟨rfl, hdescs⟩, rfl, rfl⟩ :=
        (Reader.Reads.iterate reads_itemStep _ {} _ _ _).1 hloop
      dsimp only at hend
      rw [ItemState.foldl_after] at hend
      rcases Option.eq_none_or_eq_some (ItemState.after {} (descs.flatMap ItemDesc.names)
        (descs.flatMap ItemDesc.salts)).name with hnone | ⟨name, hname⟩
      · rw [hnone] at hend
        exact (Reader.throw_eq_ok.1 hend).elim
      · rw [hname] at hend
        obtain ⟨rfl, rfl⟩ := Reader.pure_eq_ok.1 hend
        refine ⟨.upgradeItem h flag id unkFlag original processed unk descs,
          ⟨hh, hflag, hid, hunkFlag, horiginal, hprocessed, hunk, hcount, hdescs, ?_⟩, ?_,
          by simp only [TopDesc.encode, List.append_assoc]⟩
        · intro hnil
          rw [hnil] at hname
          cases hname
        · dsimp only
          rw [items_upgradeItem hname]
          rfl
    · subst hgroup
      obtain ⟨id, _, hread, hcounted⟩ := Reader.bind_eq_ok.1 hbody
      obtain ⟨flag, hflag, hid, rfl⟩ := flagAndU32_eq_ok.1 hread
      obtain ⟨_, _, hn, hlooped⟩ := Reader.bind_eq_ok.1 hcounted
      obtain ⟨hcount, rfl⟩ := u32_eq_ok.1 hn
      obtain ⟨_, hloop, rfl⟩ := Reader.bind_pure_eq_ok.1 hlooped
      obtain ⟨descs, ⟨rfl, hdescs⟩, rfl, rfl⟩ :=
        (Reader.Reads.iterate (reads_groupStep checks) _ s.2 _ _ _).1 hloop
      refine ⟨.group h flag id descs, ⟨hh, hflag, hid, hcount, hdescs⟩, ?_,
        by simp only [TopDesc.encode, List.append_assoc]⟩
      dsimp only [TopDesc.items, TopDesc.versions]
      rw [foldl_versions, List.append_nil]
    · subst hdowngrade
      simp only [Reader.bind_eq_ok, u8_eq_ok, u32_eq_ok, Reader.pure_eq_ok] at hbody
      obtain ⟨flag, _, ⟨hflag, rfl⟩, date, _, ⟨hdate, rfl⟩, unk1, _, ⟨hunk1, rfl⟩, unk2, _,
        ⟨hunk2, rfl⟩, rfl, rfl⟩ := hbody
      exact ⟨.secureDowngrade h flag date unk1 unk2, ⟨hh, hflag, hdate, hunk1, hunk2⟩,
        Prod.ext (List.append_nil _) rfl, by simp only [TopDesc.encode, List.append_assoc]⟩
    · subst hbase
      simp only [Reader.bind_eq_ok, u8_eq_ok, u16_eq_ok, Reader.pure_eq_ok] at hbody
      obtain ⟨flag, _, ⟨hflag, rfl⟩, major, _, ⟨hmajor, rfl⟩, minor, _, ⟨hminor, rfl⟩, rfl,
        rfl⟩ := hbody
      exact ⟨.baseVersion h flag major minor, ⟨hh, hflag, hmajor, hminor⟩,
        Prod.ext (List.append_nil _) rfl, by simp only [TopDesc.encode, List.append_assoc]⟩
    · subst hmetadata
      simp only [Reader.bind_eq_ok, flagAndString_eq_ok, u8_eq_ok, readExact_eq_ok,
        Reader.pure_eq_ok] at hbody
      obtain ⟨name, _, ⟨flag, hflag, hname, rfl⟩, _, _, ⟨hlen, rfl⟩, value, _, ⟨rfl, rfl⟩, rfl,
        rfl⟩ := hbody
      exact ⟨.metadata h flag name value, ⟨hh, hflag, hname, hlen⟩,
        Prod.ext (List.append_nil _) rfl,
        by simp only [TopDesc.encode, encodeString, List.append_assoc]⟩
    · exact (Reader.throw_eq_ok.1 hbody).elim
  · rintro ⟨d, hd, rfl, rfl⟩
    cases d with
    | upgradeItem h flag id unkFlag original processed unk descs =>
        obtain ⟨hh, hflag, hid, hunkFlag, horiginal, hprocessed, hunk, hcount, hdescs, hne⟩ := hd
        refine ⟨h, 0x01, _, hh, by norm_num,
          by simp only [TopDesc.encode, List.append_assoc]; rfl, ?_⟩
        rw [if_pos rfl]
        refine Reader.bind_eq_ok.2 ⟨id, _, ouUpgradeItemDesc_eq_ok.2 ⟨flag, unkFlag, original,
          processed, unk, hflag, hid, hunkFlag, horiginal, hprocessed, hunk,
          by simp only [List.append_assoc]; rfl⟩, ?_⟩
        refine Reader.bind_eq_ok.2 ⟨descs.length, _, u32_eq_ok.2 ⟨hcount, rfl⟩, ?_⟩
        refine Reader.bind_eq_ok.2 ⟨_, rest, (Reader.Reads.iterate reads_itemStep _ {} _ _ _).2
          ⟨descs, ⟨rfl, hdescs⟩, ItemState.foldl_after _ _ _ _, rfl⟩, ?_⟩
        obtain ⟨name, hname⟩ := Option.ne_none_iff_exists'.1
          fun h => hne (List.getLast?_eq_none_iff.1 h)
        have hname' : (ItemState.after {} (descs.flatMap ItemDesc.names)
            (descs.flatMap ItemDesc.salts)).name = some name := by
          rw [ItemState.after, hname, Option.some_or]
        rw [hname']
        dsimp only
        rw [items_upgradeItem hname']
        exact Reader.pure_eq_ok.2 ⟨rfl, rfl⟩
    | group h flag id descs =>
        obtain ⟨hh, hflag, hid, hcount, hdescs⟩ := hd
        refine ⟨h, 0x02, _, hh, by norm_num,
          by simp only [TopDesc.encode, List.append_assoc]; rfl, ?_⟩
        rw [if_neg (by norm_num), if_pos rfl]
        refine Reader.bind_eq_ok.2 ⟨id, _, flagAndU32_eq_ok.2 ⟨flag, hflag, hid,
          by simp only [List.append_assoc]; rfl⟩, ?_⟩
        refine Reader.bind_eq_ok.2 ⟨descs.length, _, u32_eq_ok.2 ⟨hcount, rfl⟩, ?_⟩
        refine Reader.bind_pure_eq_ok.2 ⟨_, (Reader.Reads.iterate (reads_groupStep checks) _ s.2
          _ _ _).2 ⟨descs, ⟨rfl, hdescs⟩, foldl_versions _ _ _, rfl⟩, ?_⟩
        exact Prod.ext (List.append_nil _).symm rfl
    | secureDowngrade h flag date unk1 unk2 =>
        obtain ⟨hh, hflag, hdate, hunk1, hunk2⟩ := hd
        refine ⟨h, 0x37, _, hh, by norm_num,
          by simp only [TopDesc.encode, List.append_assoc]; rfl, ?_⟩
        rw [if_neg (by norm_num), if_neg (by norm_num), if_pos rfl]
        simp only [Reader.bind_eq_ok, u8_eq_ok, u32_eq_ok, Reader.pure_eq_ok]
        exact ⟨flag, _, ⟨hflag, rfl⟩, date, _, ⟨hdate, rfl⟩, unk1, _, ⟨hunk1, rfl⟩, unk2, _,
          ⟨hunk2, rfl⟩, Prod.ext (List.append_nil _).symm rfl, rfl⟩
    | baseVersion h flag major minor =>
        obtain ⟨hh, hflag, hmajor, hminor⟩ := hd
        refine ⟨h, 0x3A, _, hh, by norm_num,
          by simp only [TopDesc.encode, List.append_assoc]; rfl, ?_⟩
        rw [if_neg (by norm_num), if_neg (by norm_num), if_neg (by norm_num), if_pos rfl]
        simp only [Reader.bind_eq_ok, u8_eq_ok, u16_eq_ok, Reader.pure_eq_ok]
        exact ⟨flag, _, ⟨hflag, rfl⟩, major, _, ⟨hmajor, rfl⟩, minor, _, ⟨hminor, rfl⟩,
          Prod.ext (List.append_nil _).symm rfl, rfl⟩
    | metadata h flag name value =>
        obtain ⟨hh, hflag, hname, hvalue⟩ := hd
        refine ⟨h, 0x23, _, hh, by norm_num,
          by simp only [TopDesc.encode, List.append_assoc]; rfl, ?_⟩
        rw [if_neg (by norm_num), if_neg (by norm_num), if_neg (by norm_num),
          if_neg (by norm_num), if_pos rfl]
        simp only [Reader.bind_eq_ok, flagAndString_eq_ok, u8_eq_ok, readExact_eq_ok,
          Reader.pure_eq_ok]
        exact ⟨name, _, ⟨flag, hflag, hname, by simp only [List.append_assoc]; rfl⟩, _, _,
          ⟨hvalue, by simp only [encodeString, List.append_assoc]⟩, value, _, ⟨rfl, rfl⟩,
          Prod.ext (List.append_nil _).symm rfl, rfl⟩

/-! ### Reading a tree -/

lemma foldl_topLevel (ts : List TopDesc) : ∀ s : List MSDItem × Option ImageVersion,
    ts.foldl (fun s d => (s.1 ++ d.items, d.versions.getLast?.or s.2)) s =
      (s.1 ++ ts.flatMap TopDesc.items, (ts.flatMap TopDesc.versions).getLast?.or s.2) := by
  induction ts with
  | nil => exact fun s => Prod.ext (List.append_nil _).symm rfl
  | cons t ts ih =>
      intro s
      rw [List.foldl_cons, ih, List.flatMap_cons, List.flatMap_cons, List.getLast?_append,
        Option.or_assoc, List.append_assoc]

lemma length_treeMagic : treeMagic.length = 51 := by decide +kernel

lemma reads_parseTree (checks : Bool) : Reader.Reads (parseTree checks) (Ouith.Valid checks)
    Ouith.encode (fun t => (t.items, t.version)) := by
  intro bs a rest
  rw [parseTree]
  constructor
  · intro h
    obtain ⟨key, _, hkeyRead, h₁⟩ := Reader.bind_eq_ok.1 h
    obtain ⟨hkey, rfl⟩ := u32_eq_ok.1 hkeyRead
    obtain ⟨_, _, hsizeRead, h₂⟩ := Reader.bind_eq_ok.1 h₁
    obtain ⟨hsize, rfl⟩ := u16_eq_ok.1 hsizeRead
    obtain ⟨signature, _, hsignature, h₃⟩ := Reader.bind_eq_ok.1 h₂
    obtain ⟨rfl, rfl⟩ := readExact_eq_ok.1 hsignature
    obtain ⟨magic, _, hmagic, h₄⟩ := Reader.bind_eq_ok.1 h₃
    obtain ⟨-, rfl⟩ := readExact_eq_ok.1 hmagic
    dsimp only at h₄
    split_ifs at h₄ with hne
    · obtain ⟨_, _, hthrow, -⟩ := Reader.bind_eq_ok.1 h₄
      exact (Reader.throw_eq_ok.1 hthrow).elim
    · obtain rfl := not_not.1 hne
      obtain ⟨_, _, hcountRead, hloop⟩ := Reader.bind_eq_ok.1 h₄
      obtain ⟨hcount, rfl⟩ := u32_eq_ok.1 hcountRead
      obtain ⟨descs, ⟨rfl, hdescs⟩, rfl, rfl⟩ :=
        (Reader.Reads.iterate (reads_topLevelStep checks) _ _ _ _ _).1 hloop
      refine ⟨⟨key, signature, descs⟩, ⟨hkey, hsize, hcount, hdescs⟩, ?_,
        by simp only [Ouith.encode, List.append_assoc]⟩
      dsimp only
      rw [foldl_topLevel, List.nil_append, Option.or_none]
      rfl
  · rintro ⟨⟨key, signature, descs⟩, ⟨hkey, hsize, hcount, hdescs⟩, rfl, rfl⟩
    refine Reader.bind_eq_ok.2 ⟨key, _, u32_eq_ok.2 ⟨hkey,
      by simp only [Ouith.encode, List.append_assoc]; rfl⟩, ?_⟩
    refine Reader.bind_eq_ok.2 ⟨signature.length, _, u16_eq_ok.2 ⟨hsize, rfl⟩, ?_⟩
    refine Reader.bind_eq_ok.2 ⟨signature, _, readExact_eq_ok.2 ⟨rfl, rfl⟩, ?_⟩
    refine Reader.bind_eq_ok.2 ⟨treeMagic, _, readExact_eq_ok.2 ⟨length_treeMagic, rfl⟩, ?_⟩
    rw [if_neg (not_not.2 rfl)]
    refine Reader.bind_eq_ok.2 ⟨descs.length, _, u32_eq_ok.2 ⟨hcount, rfl⟩, ?_⟩
    refine (Reader.Reads.iterate (reads_topLevelStep checks) _ _ _ _ _).2
      ⟨descs, ⟨rfl, hdescs⟩, ?_, rfl⟩
    dsimp only
    rw [foldl_topLevel, List.nil_append, Option.or_none]
    rfl

lemma parseBlob19_eq_ok {checks : Bool} {blob : Bytes} {items : List MSDItem}
    {info : Option ImageVersion} : parseBlob19 checks blob = .ok (items, info) ↔
      ∃ (t : Ouith) (rest : Bytes), t.Valid checks ∧ blob = t.encode ++ rest ∧
        (t.items, t.version) = (items, info) := by
  have hmap : parseBlob19 checks blob = .ok (items, info) ↔
      ∃ rest, parseTree checks blob = .ok ((items, info), rest) := by
    rw [parseBlob19]
    rcases parseTree checks blob with e | ⟨a, rest⟩
    · exact iff_of_false nofun nofun
    · constructor
      · intro h
        obtain rfl : a = (items, info) := Except.ok.inj h
        exact ⟨rest, rfl⟩
      · rintro ⟨_, ⟨⟩⟩
        rfl
  rw [hmap]
  constructor
  · rintro ⟨rest, h⟩
    obtain ⟨t, ht, heq, rfl⟩ := (reads_parseTree checks _ _ _).1 h
    exact ⟨t, rest, ht, rfl, heq⟩
  · rintro ⟨t, rest, ht, rfl, heq⟩
    exact ⟨rest, (reads_parseTree checks _ _ _).2 ⟨t, ht, heq, rfl⟩⟩

/-- **What `parse_blob_1_9` accepts.**  A blob is accepted exactly if it begins with the encoding
of a valid upgrade tree, and the items and the image version are those of the tree. -/
theorem accepts_parseBlob19 (checks : Bool) (blob : Bytes) (items : List MSDItem)
    (info : Option ImageVersion) : parseBlob19 checks blob = .ok (items, info) ↔
      ∃ t : Ouith, t.Valid checks ∧ t.encode <+: blob ∧ t.items = items ∧ t.version = info := by
  rw [parseBlob19_eq_ok]
  constructor
  · rintro ⟨t, rest, ht, rfl, heq⟩
    obtain ⟨hitems, hinfo⟩ := Prod.mk.inj heq
    exact ⟨t, ht, List.prefix_append _ _, hitems, hinfo⟩
  · rintro ⟨t, ht, ⟨rest, rfl⟩, rfl, rfl⟩
    exact ⟨t, rest, ht, rfl, rfl⟩

end SamsungTVVoices.Unixtract
