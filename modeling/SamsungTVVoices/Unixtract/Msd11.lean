/-
The firmware container (`formats/msd11/mod.rs`).

An `MSDU11` file lists its sections and its headers; the first header leads to the encrypted
table of contents, an upgrade tree whose items stand for the sections one by one.  The extraction
tries the keys of a collection on the table of contents, and writes every section, decrypted if
its item has a salt, into a file of the item's name.  On demand it writes the decrypted table of
contents, too.
-/
import SamsungTVVoices.Unixtract.Tree

open FixedDigits
open SamsungTVVoices.Driver (PyString)
open SamsungTVVoices.Updater (pyString)

namespace SamsungTVVoices.Unixtract

/-! ### Decryption -/

/-- The crates `md5`, `sha2`, `aes` and `cbc`.  A decryption is `none` if the padding is wrong. -/
structure Crypto where
  md5 : Bytes → Bytes
  sha256 : Bytes → Bytes
  aes128 (data key iv : Bytes) : Option Bytes
  aes256 (data key iv : Bytes) : Option Bytes

/-- A decryption with `decrypt_padded_mut::<Pkcs7>`. -/
def unpad : Option Bytes → Except Stop Bytes
  | some data => .ok data
  | none => .error (.message "UnpadError: UnpadError")

/-- `decrypt_aes_tizen` -/
def decryptAesTizen (crypto : Crypto) (data passphrase salt : Bytes) : Except Stop Bytes :=
  if passphrase.length = 16 then unpad (crypto.aes128 data passphrase (crypto.md5 salt))
  else if passphrase.length = 32 then
    unpad (crypto.aes256 data passphrase ((crypto.sha256 salt).take 16))
  else .error (.message "Invalid passphrase lenght")

/-- `&data[start..stop]` -/
def slice (data : Bytes) (start stop : ℕ) : Except Stop Bytes :=
  if stop ≤ data.length then .ok ((data.drop start).take (stop - start)) else .error .panicked

/-- `decrypt_aes_salted_tizen` -/
def decryptAesSaltedTizen (crypto : Crypto) (data passphrase : Bytes) : Except Stop Bytes := do
  if (← slice data 0 8) ≠ utf8 "Salted__" then throw (.message "Invalid encrypted data!")
  let salt ← slice data 8 16
  decryptAesTizen crypto (data.drop 16) passphrase salt

/-- `is_valid_ouith` -/
def isValidOuith (data : Bytes) : Except Stop Bool := do
  if (← slice data 256 306) = utf8 "Tizen Software Upgrade Tree Binary Format ver. 1.8" then
    return true
  if (← slice data 262 312) = utf8 "Tizen Software Upgrade Tree Binary Format ver. 1.9" then
    return true
  return (← slice data 518 568) = utf8 "Tizen Software Upgrade Tree Binary Format ver. 1.9"

/-! ### The headers -/

/-- `SectionEntry` -/
structure SectionEntry where
  index : ℕ
  offset : ℕ
  size : ℕ
deriving DecidableEq, Repr

/-- `HeaderEntry` -/
structure HeaderEntry where
  offset : ℕ
  size : ℕ
  nameBytes : Bytes
deriving DecidableEq, Repr

/-- `FileHeader`: its `section_count`. -/
def fileHeader : BinReader ℕ := do
  let _magic_bytes ← readExact 6
  let _header_checksum ← u32
  let _header_size ← u64
  u32

def sectionEntry : BinReader SectionEntry := do
  let index ← u32
  let offset ← u64
  let size ← u64
  return ⟨index, offset, size⟩

def headerEntry : BinReader HeaderEntry := do
  let offset ← u64
  let size ← u32
  let name_length ← u8
  let name_bytes ← readExact name_length
  return ⟨offset, size, name_bytes⟩

/-- A loop that pushes what it reads. -/
def readMany {α : Type} (read : BinReader α) (count : ℕ) : BinReader (List α) :=
  Reader.iterate (fun done => do return done ++ [← read]) count []

/-- The sections and the headers that the file lists. -/
def readHeaders : BinReader (List SectionEntry × List HeaderEntry) := do
  let section_count ← fileHeader
  let sections ← readMany sectionEntry section_count
  let header_count ← u32
  let headers ← readMany headerEntry header_count
  return (sections, headers)

/-! ### The extraction -/

/-- What an extraction depends on besides the file.  `place` says which file, if any, is opened in
the output folder for that name; writing to a file that has been opened goes well. -/
structure Environment (P : Type) where
  crypto : Crypto
  overflowChecks : Bool
  /-- The option `dump_dec_hdrs`. -/
  dumpDecHdrs : Bool
  /-- How many bytes one read of a file returns at most. -/
  readLimit : ℕ
  /-- The largest buffer that can be allocated. -/
  largestBuffer : ℕ
  place : PyString → Option P

section Extraction

variable {P : Type} [DecidableEq P] (env : Environment P) (file : Bytes)

/-- `read_file`.  It reads once and does not look at how much it got: what is missing stays
zero. -/
def readFile (offset size : ℕ) : Except Stop Bytes :=
  if 2 ^ 63 ≤ offset then .error .io
  else if env.largestBuffer < size then .error .panicked
  else
    let got := (file.drop offset).take (min size env.readLimit)
    .ok (got ++ List.replicate (size - got.length) 0)

/-- `headers[0].offset + 8`, in 64 bits. -/
def tocOffset (offset : ℕ) : Except Stop ℕ :=
  if offset + 8 < 2 ^ 64 then .ok (offset + 8)
  else if env.overflowChecks then .error .panicked
  else .ok (offset + 8 - 2 ^ 64)

/-- `headers[0].size - 8`, in 32 bits. -/
def tocSize (size : ℕ) : Except Stop ℕ :=
  if 8 ≤ size then .ok (size - 8)
  else if env.overflowChecks then .error .panicked
  else .ok (2 ^ 32 + size - 8)

/-- The encrypted table of contents, behind the first header. -/
def readToc (headers : List HeaderEntry) : Except Stop Bytes :=
  match headers with
  | [] => .error .panicked
  | header :: _ => do
      let toc_offset ← tocOffset env header.offset
      let toc_size ← tocSize env header.size
      readFile env file toc_offset toc_size

/-- The search for the passphrase.  An error of the decryption leads to the next key, a panic ends
the program. -/
def findPassphrase (toc_data : Bytes) : List (String × List Bytes) → Except Stop Bytes
  | [] => .error (.message "No matching key found!")
  | (_, keys) :: collection =>
      match keys with
      | [] => .error .panicked
      | key_bytes :: _ =>
          match decryptAesSaltedTizen env.crypto toc_data key_bytes with
          | .ok decrypted => do
              if ← isValidOuith decrypted then return key_bytes
              findPassphrase toc_data collection
          | .error .panicked => .error .panicked
          | .error _ => findPassphrase toc_data collection

/-- What is written for item number `i`. -/
def itemData (sections : List SectionEntry) (passphrase : Bytes) (i : ℕ) (item : MSDItem) :
    Except Stop Bytes :=
  match sections[i]? with
  | none => .error .panicked
  | some entry => do
      if entry.index ≠ item.itemId then
        throw (.message "Item ID in TOC does not match ID from header!")
      let stored_data ← readFile env file entry.offset entry.size
      if item.aesEncryption then
        match item.aesSalt with
        | none => throw (.message "AES salt missing!")
        | some salt => decryptAesTizen env.crypto stored_data passphrase salt
      else return stored_data

/-- Writing over a file that is not truncated: what is longer than the data stays. -/
def overwrite (old : Option Bytes) (data : Bytes) : Bytes := data ++ (old.getD []).drop data.length

/-- The files after an item has been written. -/
def writeItem (files : P → Option Bytes) (p : P) (data : Bytes) : P → Option Bytes :=
  Function.update files p (some (overwrite (files p) data))

/-- The loop over the items, from number `i` on: the files afterwards, and how it failed. -/
def extractItems (sections : List SectionEntry) (passphrase : Bytes) :
    ℕ → List MSDItem → (P → Option Bytes) → (P → Option Bytes) × Option Stop
  | _, [], files => (files, none)
  | i, item :: items, files =>
      match itemData env file sections passphrase i item with
      | .error e => (files, some e)
      | .ok out_data =>
          match env.place item.name with
          | none => (files, some .io)
          | some p => extractItems sections passphrase (i + 1) items (writeItem files p out_data)

/-- The file with the decrypted header `toc`. -/
def tocName : PyString := pyString "_toc.bin"

/-- `opt_dump_dec_hdr`, for the header `toc`: the files afterwards, and how it failed. -/
def optDumpDecHdr (data : Bytes) (files : P → Option Bytes) : (P → Option Bytes) × Option Stop :=
  if env.dumpDecHdrs then
    match env.place tocName with
    | none => (files, some .io)
    | some p => (writeItem files p data, none)
  else (files, none)

/-- What `extract_msd11` does before it writes: the sections, the passphrase and the decrypted table
of contents. -/
def openMsd11 (collection : Option (List (String × List Bytes))) :
    Except Stop (List SectionEntry × Bytes × Bytes) := do
  let ((sections, headers), _) ← readHeaders file
  let toc_data ← readToc env file headers
  match collection with
  | none => throw (.message "collection MSD11 not found")
  | some collection => do
      let passphrase ← findPassphrase env toc_data collection
      let toc ← decryptAesSaltedTizen env.crypto toc_data passphrase
      return (sections, passphrase, toc)

/-- `extract_msd11`, with the collection `MSD11` of the keys: the files afterwards, and how it
failed. -/
def extractMsd11 (collection : Option (List (String × List Bytes))) (files : P → Option Bytes) :
    (P → Option Bytes) × Option Stop :=
  match openMsd11 env file collection with
  | .error e => (files, some e)
  | .ok (sections, passphrase, toc) =>
      match optDumpDecHdr env toc files with
      | (files, some e) => (files, some e)
      | (files, none) =>
          match parseBlob19 env.overflowChecks toc with
          | .error e => (files, some e)
          | .ok (items, _) => extractItems env file sections passphrase 0 items files

end Extraction

end SamsungTVVoices.Unixtract
