/-
Compressed files (`decompress.c`, and `analyse_existing_file` in `compress.c`).

A compressed file holds its chunks, each compressed or not, in any order; a table that says where
the chunks are; the hashes of the chunks if the file is signed; and a descriptor at its very end.
The chunks are handed to zlib and lzo, which are the fields of `Codec`.

`none` is a run that the language leaves undefined: a chunk that overflows its buffer, a chunk size
that is too large, or a table that cannot be read, after which the number of chunks is not
set. -/
import SamsungTVVoices.Extractor.Catalog
import SamsungTVVoices.Lib.Areas

open FixedDigits

namespace SamsungTVVoices.Extractor

/-! ### The parts of a compressed file -/

/-- The values of `enum compr_type` that name a compression. -/
inductive ComprType where
  | zlib | lzo | xz | lzma | gzip | zhw
deriving DecidableEq, Repr

/-- The magic of the descriptor; the other compressions have none. -/
def ComprType.magic : ComprType → Option Bytes
  | zlib => some (utf8 "Zip")
  | gzip => some (utf8 "Gzp")
  | lzo => some (utf8 "Lzo")
  | zhw => some (utf8 "Zhw")
  | xz | lzma => none

/-- The hash functions of a signed file. -/
inductive HashAlg where
  | md5 | sha1 | sha256
deriving DecidableEq, Repr

/-- The first byte of the descriptor of a signed file. -/
def HashAlg.auth : HashAlg → UInt8
  | md5 => 0x49
  | sha1 => 0x48
  | sha256 => 0x68

/-- `VDFS4_MD5_HASH_LEN` and the others -/
def HashAlg.hashLen : HashAlg → ℕ
  | md5 => 16
  | sha1 => 20
  | sha256 => 32

/-- `VDFS4_COMPR_DESCR_START`: the first byte of the descriptor of any other file. -/
def comprDescrStart : UInt8 := 0x43

/-- `VDFS4_CRYPTED_HASH_LEN` -/
def cryptedHashLen : ℕ := 128

/-- `VDFS4_COMPR_LAYOUT_VER` -/
def comprLayoutVer : ℕ := 5

/-- The size of the hashes of a file with some chunks, and of their signature. -/
def hashesSize (hashAlg : Option HashAlg) (n : ℕ) : ℕ :=
  match hashAlg with
  | none => 0
  | some h => h.hashLen * (n + 1) + cryptedHashLen

/-- `struct vdfs4_comp_extent` -/
structure CompExtent where
  flags : ℕ
  lenBytes : ℕ
  start : ℕ
deriving DecidableEq, Repr

/-- `sizeof(struct vdfs4_comp_extent)` -/
def compExtentSize : ℕ := 16

namespace CompExtent

/-- `VDFS4_CHUNK_FLAG_UNCOMPR` is set. -/
def Uncompressed (e : CompExtent) : Prop := e.flags % 2 = 1

instance (e : CompExtent) : Decidable e.Uncompressed := inferInstanceAs (Decidable (_ = _))

/-- The extent in memory. -/
def encode (e : CompExtent) : Bytes :=
  utf8 "XT" ++ leBytes 2 e.flags ++ leBytes 4 e.lenBytes ++ leBytes 8 e.start

def decode (d : Bytes) : CompExtent := ⟨field d 2 2, field d 4 4, field d 8 8⟩

end CompExtent

/-- `struct vdfs4_comp_file_descr` -/
structure CompFileDescr where
  magic : Bytes
  extentsNum : ℕ
  layoutVersion : ℕ
  unpackedSize : ℕ
  crc : ℕ
  logChunkSize : ℕ
deriving DecidableEq, Repr

/-- `sizeof(struct vdfs4_comp_file_descr)` -/
def compFileDescrSize : ℕ := 32

namespace CompFileDescr

/-- What lies before `crc`, which is what is signed. -/
def signedPart (descr : CompFileDescr) : Bytes :=
  descr.magic ++ leBytes 2 descr.extentsNum ++ leBytes 2 descr.layoutVersion ++
    leBytes 8 descr.unpackedSize

/-- The descriptor in memory. -/
def encode (descr : CompFileDescr) : Bytes :=
  descr.signedPart ++ leBytes 4 descr.crc ++ leBytes 4 descr.logChunkSize ++ List.replicate 8 0

def decode (d : Bytes) : CompFileDescr :=
  ⟨d.take 4, field d 4 2, field d 6 2, field d 8 8, field d 16 4, field d 20 4⟩

/-- The compression that the magic names. -/
def comprType (descr : CompFileDescr) : Option ComprType :=
  [ComprType.zlib, .gzip, .lzo, .zhw].find? fun t => t.magic = some (descr.magic.drop 1)

/-- The hash function that the magic names. -/
def hashAlg (descr : CompFileDescr) : Option HashAlg :=
  [HashAlg.md5, .sha1, .sha256].find? fun h => descr.magic.head? = some h.auth

/-- The size of the table, the hashes and the descriptor itself. -/
def footerSize (descr : CompFileDescr) : ℕ :=
  compFileDescrSize + descr.extentsNum * compExtentSize +
    hashesSize descr.hashAlg descr.extentsNum

end CompFileDescr

/-- The table of chunks: it lies before the hashes and the descriptor. -/
def readTable (file : Bytes) (start : ℕ) (n : ℕ) : List CompExtent :=
  (List.range n).map fun i =>
    CompExtent.decode ((file.drop (start + compExtentSize * i)).take compExtentSize)

/-! ### The chunks -/

/-- The calls on zlib and lzo: their codes, and what they write. -/
structure Codec where
  /-- `deflate` with `Z_FINISH`, after `deflateInit2` for gzip or not, and the room for the
output. -/
  deflate : Bool → Bytes → ℕ → ℤ × Bytes
  /-- `inflate`, after `inflateInit2` for gzip or not, and the room for the output. -/
  inflate : Bool → Bytes → ℕ → ℤ × Bytes
  uncompress : Bytes → ℕ → ℤ × Bytes
  lzoCompress : Bytes → ℤ × Bytes
  lzoDecompress : Bytes → ℕ → ℤ × Bytes

/-- `Z_OK` and `Z_STREAM_END` -/
def Finished (ret : ℤ) : Prop := ret = 0 ∨ ret = 1

instance (ret : ℤ) : Decidable (Finished ret) := inferInstanceAs (Decidable (_ ∨ _))

/-- `ENOTSUP` -/
def enotsup : ℤ := 95

namespace Codec

variable (lib : Codec)

/-- `decompress_zlib` -/
def decompressZlib (ibuff : Bytes) (olen : ℕ) : ℤ × Bytes :=
  let result := lib.inflate false ibuff olen
  if Finished result.1 then (0, result.2) else (-2, result.2)

/-- `decompress_gzip`: after `uncompress` the length is still the one that `inflate` has set. -/
def decompressGzip (ibuff : Bytes) (olen : ℕ) : ℤ × Bytes :=
  let result := lib.inflate true ibuff olen
  if Finished result.1 then (0, result.2)
  else
    let again := lib.uncompress ibuff 4096
    let obuff := again.2 ++ result.2.drop again.2.length
    if Finished again.1 then (0, obuff.take result.2.length) else (-2, obuff)

/-- `decompressor[compress_type]` -/
def decompressor : ComprType → Bytes → ℕ → ℤ × Bytes
  | .zlib | .zhw => lib.decompressZlib
  | .gzip => lib.decompressGzip
  | .lzo => lib.lzoDecompress
  | .xz | .lzma => fun _ _ => (-enotsup, [])

/-- The loop of `decompress_file`, with the position in the file and what has been written. -/
def decompressLoop (type : ComprType) (chunkSize : ℕ) (file : Bytes) :
    ℕ → Bytes → List CompExtent → Option (ℤ × Bytes)
  | _, output, [] => some (0, output)
  | pos, output, e :: exts =>
      -- `lseek` fails for a negative offset, and the position stays
      let start := if e.start < 2 ^ 63 then e.start else pos
      let data := (file.drop start).take e.lenBytes
      if data = [] then some (0, output)
      else if chunkSize < data.length then none
      else if e.Uncompressed then
        decompressLoop type chunkSize file (start + data.length) (output ++ data) exts
      else
        let result := lib.decompressor type data chunkSize
        if result.1 = 0 then
          decompressLoop type chunkSize file (start + data.length) (output ++ result.2) exts
        else some (result.1, output)

/-! ### The whole file -/

/-- `decode_file` with `need_decompress`: the code that it returns, what it has written, and whether
the file is signed. -/
def decodeFile (file : Bytes) : Option (ℤ × Bytes × Bool) :=
  if file.length < compFileDescrSize then some (-einval, [], false)
  else
    let descr := CompFileDescr.decode (file.drop (file.length - compFileDescrSize))
    match descr.comprType with
    | none => some (-einval, [], false)
    | some type =>
        if file.length / compExtentSize < descr.extentsNum then some (-einval, [], false)
        else if descr.extentsNum ≠ 0 ∧ file.length < descr.footerSize then none
        else
          let signed := descr.hashAlg.isSome
          if descr.layoutVersion ≠ comprLayoutVer then some (-einval, [], false)
          else if !signed && descr.magic.head? ≠ some comprDescrStart then
            some (-einval, [], false)
          else if 31 ≤ descr.logChunkSize then none
          else
            (lib.decompressLoop type (2 ^ descr.logChunkSize) file 0 []
              (readTable file (file.length - descr.footerSize) descr.extentsNum)).map
              fun result => (result.1, result.2, signed)

end Codec

/-! ### The parts are read as they are written -/

/-- The fields fit in the extent. -/
structure CompExtent.Fits (e : CompExtent) : Prop where
  flags : e.flags < 2 ^ 16
  lenBytes : e.lenBytes < 2 ^ 32
  start : e.start < 2 ^ 63

@[simp] lemma CompExtent.length_encode (e : CompExtent) : e.encode.length = compExtentSize := by
  have hmagic : (utf8 "XT").length = 2 := by decide
  simp only [encode, List.length_append, length_leBytes, hmagic]
  rfl

lemma CompExtent.decode_encode {e : CompExtent} (h : e.Fits) : decode e.encode = e := by
  have hmagic : (utf8 "XT").length = 2 := by decide
  have hflags : field e.encode 2 2 = e.flags :=
    field_eq (utf8 "XT") (leBytes 4 e.lenBytes ++ leBytes 8 e.start)
      (by simp only [encode, List.append_assoc]) hmagic (h.flags.trans_le (by decide))
  have hlen : field e.encode 4 4 = e.lenBytes :=
    field_eq (utf8 "XT" ++ leBytes 2 e.flags) (leBytes 8 e.start)
      (by simp only [encode, List.append_assoc])
      (by rw [List.length_append, hmagic, length_leBytes]) (h.lenBytes.trans_le (by decide))
  have hstart : field e.encode 8 8 = e.start :=
    field_eq (utf8 "XT" ++ leBytes 2 e.flags ++ leBytes 4 e.lenBytes) []
      (by simp only [encode, List.append_assoc, List.append_nil])
      (by rw [List.length_append, List.length_append, hmagic, length_leBytes, length_leBytes])
      (h.start.trans_le (by decide))
  rw [decode, hflags, hlen, hstart]

/-- The fields fit in the descriptor. -/
structure CompFileDescr.Fits (d : CompFileDescr) : Prop where
  magic : d.magic.length = 4
  extentsNum : d.extentsNum < 2 ^ 16
  layoutVersion : d.layoutVersion < 2 ^ 16
  unpackedSize : d.unpackedSize < 2 ^ 64
  crc : d.crc < 2 ^ 32
  logChunkSize : d.logChunkSize < 2 ^ 32

lemma CompFileDescr.length_encode {d : CompFileDescr} (h : d.magic.length = 4) :
    d.encode.length = compFileDescrSize := by
  simp only [encode, signedPart, List.length_append, length_leBytes, List.length_replicate, h]
  rfl

lemma CompFileDescr.decode_encode {d : CompFileDescr} (h : d.Fits) : decode d.encode = d := by
  have hsigned : d.signedPart.length = 16 := by
    simp only [signedPart, List.length_append, length_leBytes, h.magic]
  have htail : ∀ t : Bytes, d.signedPart ++ t = d.magic ++ (leBytes 2 d.extentsNum ++
      (leBytes 2 d.layoutVersion ++ (leBytes 8 d.unpackedSize ++ t))) := by
    intro t
    simp only [signedPart, List.append_assoc]
  obtain ⟨t, hencode, ht⟩ : ∃ t, d.encode = d.signedPart ++ t ∧
      t = leBytes 4 d.crc ++ (leBytes 4 d.logChunkSize ++ List.replicate 8 0) :=
    ⟨_, by simp only [encode, List.append_assoc], rfl⟩
  have hnum : field d.encode 4 2 = d.extentsNum :=
    field_eq d.magic _ (hencode.trans (htail _)) h.magic (h.extentsNum.trans_le (by decide))
  have hversion : field d.encode 6 2 = d.layoutVersion := by
    refine field_eq (d.magic ++ leBytes 2 d.extentsNum) (leBytes 8 d.unpackedSize ++ t) ?_ ?_
      (h.layoutVersion.trans_le (by decide))
    · rw [hencode, htail, List.append_assoc]
    · rw [List.length_append, h.magic, length_leBytes]
  have hsize : field d.encode 8 8 = d.unpackedSize := by
    refine field_eq (d.magic ++ leBytes 2 d.extentsNum ++ leBytes 2 d.layoutVersion) t ?_ ?_
      (h.unpackedSize.trans_le (by decide))
    · rw [hencode, htail, List.append_assoc, List.append_assoc]
    · rw [List.length_append, List.length_append, h.magic, length_leBytes, length_leBytes]
  have hcrc : field d.encode 16 4 = d.crc :=
    field_eq d.signedPart _ (hencode.trans (by rw [ht])) hsigned (h.crc.trans_le (by decide))
  have hlog : field d.encode 20 4 = d.logChunkSize := by
    refine field_eq (d.signedPart ++ leBytes 4 d.crc) (List.replicate 8 0) ?_ ?_
      (h.logChunkSize.trans_le (by decide))
    · rw [hencode, ht, List.append_assoc]
    · rw [List.length_append, hsigned, length_leBytes]
  have hmagic : d.encode.take 4 = d.magic := by
    rw [hencode, htail, List.take_left' h.magic]
  rw [decode, hmagic, hnum, hversion, hsize, hcrc, hlog]

/-- The table is read where it was written. -/
lemma readTable_eq {exts : List CompExtent} (hexts : ∀ e ∈ exts, e.Fits) (body rest : Bytes) :
    readTable (body ++ (exts.flatMap CompExtent.encode ++ rest)) body.length exts.length = exts := by
  induction exts generalizing body with
  | nil => rfl
  | cons e exts ih =>
      have hlength : (body ++ e.encode).length = body.length + compExtentSize := by
        rw [List.length_append, CompExtent.length_encode]
      have hrest := ih (fun x hx => hexts x (List.mem_cons_of_mem e hx)) (body ++ e.encode)
      rw [List.append_assoc, hlength] at hrest
      rw [readTable, List.length_cons, List.range_succ_eq_map, List.map_cons, List.map_map,
        List.flatMap_cons, List.append_assoc, Nat.mul_zero, Nat.add_zero, List.drop_left,
        List.take_left' (CompExtent.length_encode e),
        CompExtent.decode_encode (hexts e List.mem_cons_self)]
      congr 1
      refine Eq.trans (List.map_congr_left fun i _ => ?_) hrest
      rw [Function.comp_apply, Nat.mul_succ, Nat.add_comm (compExtentSize * i), Nat.add_assoc]

/-! ### A file that is laid out well -/

namespace Codec

variable (lib : Codec) {type : ComprType} {chunkSize : ℕ} {file : Bytes}

/-- The extent leads to a chunk of the file, from which these bytes are read. -/
def Reads (type : ComprType) (chunkSize : ℕ) (file : Bytes) (e : CompExtent) (x : Bytes) : Prop :=
  ∃ data, At file e.start data ∧ data.length = e.lenBytes ∧ data ≠ [] ∧ data.length ≤ chunkSize ∧
    if e.Uncompressed then data = x else lib.decompressor type data chunkSize = (0, x)

/-- The chunks are written one after the other, wherever they lie. -/
lemma decompressLoop_eq {exts : List CompExtent} {xs : List Bytes}
    (hreads : List.Forall₂ (lib.Reads type chunkSize file) exts xs) (hexts : ∀ e ∈ exts, e.Fits)
    (pos : ℕ) (output : Bytes) :
    lib.decompressLoop type chunkSize file pos output exts = some (0, output ++ xs.flatten) := by
  induction hreads generalizing pos output with
  | nil => rw [decompressLoop, List.flatten_nil, List.append_nil]
  | @cons e x exts xs hread _ ih =>
      obtain ⟨data, hat, hlength, hne, hle, hdata⟩ := hread
      have htake : (file.drop e.start).take e.lenBytes = data := hlength ▸ hat.take_drop
      have hrest := ih fun y hy => hexts y (List.mem_cons_of_mem e hy)
      rw [decompressLoop]
      dsimp only
      rw [if_pos (hexts e List.mem_cons_self).start, htake, if_neg hne, if_neg (not_lt.2 hle),
        List.flatten_cons, ← List.append_assoc]
      by_cases huncompressed : e.Uncompressed
      · rw [if_pos huncompressed] at hdata ⊢
        rw [hrest, hdata]
      · rw [if_neg huncompressed] at hdata ⊢
        rw [hdata, if_pos rfl, hrest]

end Codec

/-- The descriptor says what the file is. -/
structure CompFileDescr.Describes (d : CompFileDescr) (type : ComprType) (hashAlg : Option HashAlg)
    (n logChunkSize : ℕ) : Prop where
  fits : d.Fits
  comprType_eq : d.comprType = some type
  hashAlg_eq : d.hashAlg = hashAlg
  first : hashAlg = none → d.magic.head? = some comprDescrStart
  extentsNum_eq : d.extentsNum = n
  layoutVersion_eq : d.layoutVersion = comprLayoutVer
  logChunkSize_eq : d.logChunkSize = logChunkSize

/-- A file is read by its descriptor and its table. -/
lemma Codec.decodeFile_eq (lib : Codec) {type : ComprType} {hashAlg : Option HashAlg}
    {logChunkSize : ℕ} {file body hashes : Bytes} {exts : List CompExtent} {descr : CompFileDescr}
    (hfile : file = body ++ (exts.flatMap CompExtent.encode ++ (hashes ++ descr.encode)))
    (hdescr : descr.Describes type hashAlg exts.length logChunkSize) (hlog : logChunkSize < 31)
    (hhashes : hashes.length = hashesSize hashAlg exts.length) (hexts : ∀ e ∈ exts, e.Fits) :
    lib.decodeFile file = (lib.decompressLoop type (2 ^ logChunkSize) file 0 [] exts).map
      fun result => (result.1, result.2, hashAlg.isSome) := by
  have hsize := CompFileDescr.length_encode hdescr.fits.magic
  have htable : (exts.flatMap CompExtent.encode).length = exts.length * compExtentSize := by
    rw [List.length_flatMap, List.map_congr_left fun e _ => CompExtent.length_encode e,
      List.map_const', List.sum_replicate, Nat.nsmul_eq_mul]
  have hfooter : descr.footerSize = (exts.flatMap CompExtent.encode).length + hashes.length +
      descr.encode.length := by
    rw [htable, hhashes, hsize, CompFileDescr.footerSize, hdescr.hashAlg_eq, hdescr.extentsNum_eq]
    omega
  have hlength : file.length = body.length + descr.footerSize := by
    rw [hfooter]
    rw [hfile, List.length_append, List.length_append, List.length_append]
    omega
  have hdrop : file.drop (file.length - compFileDescrSize) = descr.encode := by
    have hfront : file = (body ++ (exts.flatMap CompExtent.encode ++ hashes)) ++ descr.encode := by
      simp only [hfile, List.append_assoc]
    rw [← hsize, hfront, List.length_append, Nat.add_sub_cancel, List.drop_left]
  have hdecode : CompFileDescr.decode (file.drop (file.length - compFileDescrSize)) = descr := by
    rw [hdrop, CompFileDescr.decode_encode hdescr.fits]
  have hmany : ¬ file.length / compExtentSize < exts.length := by
    rw [not_lt, Nat.le_div_iff_mul_le (by decide)]
    omega
  have hread : readTable file (file.length - descr.footerSize) exts.length = exts := by
    rw [hlength, Nat.add_sub_cancel, hfile]
    exact readTable_eq hexts body _
  have hstart : ¬ (!hashAlg.isSome && decide (descr.magic.head? ≠ some comprDescrStart)) = true := by
    cases hashAlg with
    | none => simp [hdescr.first rfl]
    | some h => simp
  rw [Codec.decodeFile, if_neg (by omega), hdecode]
  dsimp only
  rw [hdescr.comprType_eq]
  dsimp only
  rw [hdescr.extentsNum_eq, if_neg hmany, if_neg (by omega), hdescr.layoutVersion_eq,
    if_neg (not_not.2 rfl), hdescr.hashAlg_eq, if_neg hstart, hdescr.logChunkSize_eq,
    if_neg (by omega), hread]

end SamsungTVVoices.Extractor
