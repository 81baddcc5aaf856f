/-
The upgrade tree of a firmware container (`msd_ouith_parser_tizen_1_9.rs`).

The table of contents of an `MSDU11` container is a tree of descriptors: what the container
holds under which name and with which salt, what the image is called, and much that is only
skipped.  `Ouith` is the syntax of such trees.  `accepts_parseBlob19` says that the parser accepts
exactly the encodings of valid trees, whatever stands behind them, and returns the items and the
image version that the tree names: the last name and the last salt of an item count, and no item
is without a name.  The sizes of the descriptors that it implements are not looked at.
-/
import SamsungTVVoices.Lib.Reader
import SamsungTVVoices.Store.Helper

open FixedDigits
open SamsungTVVoices.Driver (PyString)

namespace SamsungTVVoices.Unixtract

/-- How the program ends without a result. -/
inductive Stop where
  | panicked
  | unexpectedEnd
  | noName (id : ℕ)
  | unexpectedTopLevel (tag : ℕ)
  | io
  | message (text : String)
deriving DecidableEq, Repr

/-! ### The parser -/

/-- What is read with `binrw`. -/
abbrev BinReader (α : Type) := Reader Stop α

def u8 : BinReader ℕ := Reader.uint .unexpectedEnd 1

def u16 : BinReader ℕ := Reader.uint .unexpectedEnd 2

def u32 : BinReader ℕ := Reader.uint .unexpectedEnd 4

def u64 : BinReader ℕ := Reader.uint .unexpectedEnd 8

/-- `read_exact` -/
def readExact (size : ℕ) : BinReader Bytes := Reader.bytes .unexpectedEnd size

/-- `string_from_bytes` -/
def stringFromBytes (buf : Bytes) : PyString := Store.decodeReplace (buf.takeWhile (· ≠ 0))

/-- `DescriptorHeader` -/
structure DescriptorHeader where
  size : ℕ
  tag : ℕ

def descriptorHeader : BinReader DescriptorHeader := do
  let _flag ← u8
  let size ← u32
  let tag ← u32
  return ⟨size, tag⟩

/-- A descriptor that is not implemented.  Below `4` the subtraction `size as usize - 4` overflows:
it panics, or asks for a buffer that `vec!` cannot make. -/
def unimplemented (size : ℕ) : BinReader Unit := do
  if size < 4 then throw .panicked
  let _ ← readExact (size - 4)

/-- `OURSAValidationDesc` -/
def ouRSAValidationDesc : BinReader Unit := do
  let _flag ← u8
  let _public_key_id ← u32
  let signature_size ← u16
  let _signature ← readExact signature_size

/-- `OUAESEncryptionDesc`: its salt. -/
def ouAESEncryptionDesc : BinReader Bytes := do
  let _flag ← u8
  let salt_size ← u8
  let salt ← readExact salt_size
  let _processed_size ← u64
  return salt

/-- `OUCRC32ValidationDesc` and `OUGroupInfoDesc`, `OUDataProcessingDesc` and `OUGroupDesc`: a flag
and a number. -/
def flagAndU32 : BinReader ℕ := do
  let _flag ← u8
  u32

/-- `OUPartitionVersionDesc` and `OUSWDeviceTypeDesc`: a flag and a counted string. -/
def flagAndString : BinReader Bytes := do
  let _flag ← u8
  let len ← u8
  readExact len

/-- `OUUpgradeItemDesc`: its `item_id`. -/
def ouUpgradeItemDesc : BinReader ℕ := do
  let _flag ← u8
  let item_id ← u32
  let _unk_flag ← u8
  let _original_size ← u64
  let _processed_size ← u64
  let _unk ← u16
  return item_id

/-- What the loops over an upgrade item gather. -/
structure ItemState where
  name : Option PyString := none
  aesEncryption : Bool := false
  aesSalt : Option Bytes := none
deriving DecidableEq, Repr

/-- One subdescriptor of `OUDataProcessingDesc`. -/
def processingStep (s : ItemState) : BinReader ItemState := do
  let desc ← descriptorHeader
  if desc.tag = 0x12 then do
    let _ ← flagAndU32
    return s
  else if desc.tag = 0x10 then do
    ouRSAValidationDesc
    return s
  else if desc.tag = 0x0E then do
    let salt ← ouAESEncryptionDesc
    return { s with aesEncryption := true, aesSalt := some salt }
  else do
    unimplemented desc.size
    return s

/-- One subdescriptor of `OUUpgradeItemDesc`. -/
def itemStep (s : ItemState) : BinReader ItemState := do
  let desc ← descriptorHeader
  if desc.tag = 0x0A then do
    let name ← flagAndString
    return { s with name := some (stringFromBytes name) }
  else if desc.tag = 0x07 then do
    let subdesc_count ← flagAndU32
    Reader.iterate processingStep subdesc_count s
  else if desc.tag = 0x13 then do
    let _ ← flagAndU32
    return s
  else do
    unimplemented desc.size
    return s

/-- `MSDItem` -/
structure MSDItem where
  itemId : ℕ
  name : PyString
  aesEncryption : Bool
  aesSalt : Option Bytes
deriving DecidableEq, Repr

/-- `OUSWImageVersionDesc` -/
structure ImageVersion where
  name : Bytes
  majorVer : ℕ
  minorVer : ℕ
deriving DecidableEq, Repr

/-- `(size as usize - name_len as usize - 4) == 7`, whose subtraction panics or wraps around to a
number that is not `7`. -/
def hasPadding (checks : Bool) (size nameLen : ℕ) : BinReader Bool :=
  if nameLen + 4 ≤ size then return size - nameLen - 4 = 7
  else if checks then throw .panicked
  else return false

/-- The byte that newer images have there. -/
def padding (checks : Bool) (size nameLen : ℕ) : BinReader Unit := do
  if ← hasPadding checks size nameLen then
    let _pad ← u8

/-- `OUSWImageVersionDesc` -/
def ouSWImageVersionDesc (checks : Bool) (size : ℕ) : BinReader ImageVersion := do
  let _flag ← u8
  let name_len ← u8
  let name_bytes ← readExact name_len
  padding checks size name_len
  let major_ver ← u16
  let minor_ver ← u16
  return ⟨name_bytes, major_ver, minor_ver⟩

/-- One subdescriptor of `OUGroupDesc`. -/
def groupStep (checks : Bool) (info : Option ImageVersion) :
    BinReader (Option ImageVersion) := do
  let desc ← descriptorHeader
  if desc.tag = 0x19 then do
    let version ← ouSWImageVersionDesc checks desc.size
    return some version
  else if desc.tag = 0x3d then do
    let _ ← flagAndString
    return info
  else do
    unimplemented desc.size
    return info

/-- One top level descriptor. -/
def topLevelStep (checks : Bool) (s : List MSDItem × Option ImageVersion) :
    BinReader (List MSDItem × Option ImageVersion) := do
  let desc ← descriptorHeader
  if desc.tag = 0x01 then do
    let item_id ← ouUpgradeItemDesc
    let subdesc_count ← u32
    let item ← Reader.iterate itemStep subdesc_count {}
    match item.name with
    | some name => return (s.1 ++ [⟨item_id, name, item.aesEncryption, item.aesSalt⟩], s.2)
    | none => throw (.noName item_id)
  else if desc.tag = 0x02 then do
    let _ ← flagAndU32
    let subdesc_count ← u32
    let info ← Reader.iterate (groupStep checks) subdesc_count s.2
    return (s.1, info)
  else if desc.tag = 0x37 then do
    -- `OUSecureDowngradeDesc`
    let _flag ← u8
    let _image_generation_date ← u32
    let _unk1 ← u32
    let _unk2 ← u32
    return s
  else if desc.tag = 0x3A then do
    -- `OUOSUpgradeBaseVersionDesc`
    let _flag ← u8
    let _major_ver ← u16
    let _minor_ver ← u16
    return s
  else if desc.tag = 0x23 then do
    -- `OUMetadataDesc`
    let _name ← flagAndString
    let value_len ← u8
    let _value ← readExact value_len
    return s
  else throw (.unexpectedTopLevel desc.tag)

/-- The text in front of the descriptors. -/
def treeMagic : Bytes := utf8 "Tizen Software Upgrade Tree Binary Format ver. 1.9" ++ [0]

/-- `parse_blob_1_9`, as a reader of the blob. -/
def parseTree (checks : Bool) : BinReader (List MSDItem × Option ImageVersion) := do
  let _public_key_id ← u32
  let signature_size ← u16
  let _signature ← readExact signature_size
  let magic ← readExact 51
  if magic ≠ treeMagic then throw (.message "Invalid tree magic!")
  let top_level_descriptor_count ← u32
  Reader.iterate (topLevelStep checks) top_level_descriptor_count ([], none)

/-- `parse_blob_1_9`.  `checks` says whether the program was built with overflow checks. -/
def parseBlob19 (checks : Bool) (blob : Bytes) :
    Except Stop (List MSDItem × Option ImageVersion) :=
  (parseTree checks blob).map Prod.fst

end SamsungTVVoices.Unixtract
