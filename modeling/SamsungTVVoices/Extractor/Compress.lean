/-
How compressed files are made (`compress.c`).

`mkfs` compresses the chunks of a file in several threads (`compress_file`,
`compress_chunk_thread`).  A thread appends what it has made of its chunk to one of two temporary
files, one for the chunks that stay as they are and one for the others, and notes where it has
begun, under the mutex of that file.  The order of these sections is the order of the chunks in the
temporary files.  Afterwards the chunks that stay as they are are brought back into their own order.
`tune` does without threads (`compress_file_tune`, `add_compression_info`).

`none` is a failure, whatever its code, or a failed assertion.
-/
import SamsungTVVoices.Extractor.Compressed
import SamsungTVVoices.Extractor.Crc32
import SamsungTVVoices.Extractor.Whole
import SamsungTVVoices.Lib.Areas
import Mathlib.Algebra.Order.BigOperators.Group.List

open FixedDigits

namespace SamsungTVVoices.Extractor

/-! ### One chunk -/

/-- `ALIGN` -/
def align (x a : ℕ) : ℕ := (x + a - 1) / a * a

/-- The chunks that `read` returns until the end of the file. -/
def chunksOf (chunkSize : ℕ) (src : Bytes) : List Bytes :=
  (List.range (align src.length chunkSize / chunkSize)).map fun i =>
    (src.drop (i * chunkSize)).take chunkSize

/-- `VDFS4_HW_COMPR_PAGE_PER_CHUNK << PAGE_SHIFT` -/
def hwChunkSize : ℕ := 32 * 4096

/-- What the size of a chunk is a multiple of, for the decompressor in hardware or not. -/
def chunkAlign (type : ComprType) (hardware : Bool) : ℕ :=
  match type with
  | .gzip => if hardware then 8 else 1
  | .zhw => if hardware then 16 else 1
  | _ => 1

/-- `COMPRESS_RATIO` -/
def compressRatio : ℕ := 75

/-- What becomes of a chunk: the flag and the length for the table, and what is written. -/
structure PackedChunk where
  uncompressed : Bool
  lenBytes : ℕ
  data : Bytes
deriving DecidableEq, Repr

/-- The chunk as it is, filled up with zeros. -/
def keepChunk (alignment : ℕ) (input : Bytes) : PackedChunk where
  uncompressed := true
  lenBytes := input.length
  data := input ++ List.replicate (align input.length alignment - input.length) 0

namespace Codec

variable (lib : Codec)

/-- `__compress_zlib_gzip_chunk`: the code, the output, and `*olen`, which is the room that is
left. -/
def compressZlibGzipChunk (gzip : Bool) (ibuff : Bytes) : Option (ℤ × Bytes × ℕ) :=
  let result := lib.deflate gzip ibuff ibuff.length
  let availOut := ibuff.length - result.2.length
  if result.1 = 0 ∨ ibuff.length ≤ availOut then
    some (if result.1 = 1 then 0 else result.1, ibuff, ibuff.length)
  else if result.1 = 1 then some (0, result.2, availOut)
  else none

/-- `compress_lzo_chunk` -/
def compressLzoChunk (ibuff : Bytes) : ℤ × Bytes × ℕ :=
  let result := lib.lzoCompress ibuff
  if result.1 ≠ 0 then (result.1, result.2, ibuff.length)
  else if ibuff.length ≤ result.2.length then (0, ibuff, ibuff.length)
  else (0, result.2, ibuff.length - result.2.length)

/-- `compressor[compress_type]` -/
def compressor : ComprType → Bytes → Option (ℤ × Bytes × ℕ)
  | .zlib | .zhw => lib.compressZlibGzipChunk false
  | .gzip => lib.compressZlibGzipChunk true
  | .lzo => fun ibuff => some (lib.compressLzoChunk ibuff)
  | .xz | .lzma => fun ibuff => some (-enotsup, [], ibuff.length)

/-- `compress_chunk`, and what is written for its result.  `alignKept` is the alignment of the
chunks that stay as they are. -/
def compressChunk (type : ComprType) (chunkSize alignKept : ℕ) (input : Bytes) :
    Option PackedChunk := do
  let result ← lib.compressor type input
  if result.1 ≠ 0 then none
  else
    let have_compress_ratio := (input.length - result.2.2) * 100 / input.length
    if input.length = result.2.2 ∨ compressRatio < have_compress_ratio then
      return keepChunk alignKept input
    else
      let len := align (input.length - result.2.2) (chunkAlign type (chunkSize = hwChunkSize))
      return {
        uncompressed := false
        lenBytes := len
        data := (result.2.1 ++ List.replicate len 0).take len }

/-- What a thread, or a round of the loop of `tune`, makes of a chunk: the chunks of a small file
stay as they are. -/
def packChunk (type : ComprType) (chunkSize alignKept : ℕ) (small : Bool) (input : Bytes) :
    Option PackedChunk :=
  if small then some (keepChunk alignKept input)
  else lib.compressChunk type chunkSize alignKept input

end Codec

/-! ### The temporary files and the table -/

/-- A chunk by its number. -/
def chunkAt (packed : List PackedChunk) (i : ℕ) : PackedChunk := packed.getD i ⟨true, 0, []⟩

/-- The temporary files after the chunks have been written in some order: `true` is the file of
those that stay as they are. -/
def writeChunks (packed : List PackedChunk) (order : List ℕ) : Areas Bool ℕ UInt8 :=
  order.foldl (fun s i => s.store (chunkAt packed i).uncompressed i (chunkAt packed i).data)
    ⟨fun _ => [], fun _ => 0⟩

/-- The table: the other chunks will stand behind those that stay as they are. -/
def chunkTable (packed : List PackedChunk) (s : Areas Bool ℕ UInt8) : List CompExtent :=
  packed.mapIdx fun i chunk =>
    if chunk.uncompressed then ⟨1, chunk.lenBytes, s.start i⟩
    else ⟨0, chunk.lenBytes, s.start i + (s.area true).length⟩

/-- The loop of `compress_file` that brings the chunks that stay as they are into their order: what
it writes, and the table. -/
def moveLoop (alignment : ℕ) (file : Bytes) : ℕ → List CompExtent → Option (Bytes × List CompExtent)
  | _, [] => some ([], [])
  | offset, e :: exts =>
      if e.Uncompressed then do
        let size := align e.lenBytes alignment
        let data := (file.drop e.start).take size
        if data.length ≠ size then none
        else
          let rest ← moveLoop alignment file (offset + size) exts
          return (data ++ rest.1, { e with start := offset } :: rest.2)
      else do
        let rest ← moveLoop alignment file offset exts
        return (rest.1, e :: rest.2)

/-! ### The end of the file -/

/-- What a file is signed with: a hash function, and `RSA_private_encrypt`. -/
structure Signer where
  alg : HashAlg
  hash : Bytes → Bytes
  encrypt : Bytes → Option Bytes
  length_hash : ∀ bs, (hash bs).length = alg.hashLen
  length_encrypt : ∀ bs out, encrypt bs = some out → out.length = cryptedHashLen

namespace Signer

variable (signer : Signer)

/-- `sign_rsa` -/
def signRsa (buf : Bytes) : Option Bytes :=
  signer.encrypt (List.replicate (cryptedHashLen - signer.alg.hashLen) 0 ++ signer.hash buf)

/-- The hashes of the chunks and of the descriptor, and their signature. -/
def hashTable (packed : List PackedChunk) (descr : CompFileDescr) : Option Bytes := do
  let hashes := packed.flatMap (fun chunk => signer.hash (chunk.data.take chunk.lenBytes)) ++
    signer.hash descr.signedPart
  let signature ← signer.signRsa hashes
  return hashes ++ signature

end Signer

/-- The size of a file, through an `int`. -/
def unpackedSize (n : ℕ) : ℕ := ((BitVec.ofNat 32 n).signExtend 64).toNat

/-- `prepare_file_descr`; the checksum is still 0. -/
def prepareFileDescr (type : ComprType) (chunks fileSize logChunkSize : ℕ)
    (signer : Option Signer) : Option CompFileDescr :=
  type.magic.map fun magic =>
    let first := match signer with
      | none => comprDescrStart
      | some signer => signer.alg.auth
    ⟨first :: magic, chunks, comprLayoutVer, unpackedSize fileSize, 0, logChunkSize⟩

/-- The hashes of a file; a file that is not signed has none. -/
def fileHashes (packed : List PackedChunk) (descr : CompFileDescr) : Option Signer → Option Bytes
  | none => some []
  | some signer => signer.hashTable packed descr

/-- What is written behind the chunks: the table, the hashes and the descriptor. -/
def writeFooter (packed : List PackedChunk) (exts : List CompExtent) (descr : CompFileDescr)
    (signer : Option Signer) : Option Bytes := do
  let table := exts.flatMap CompExtent.encode
  let hashes ← fileHashes packed descr signer
  let crc := Crc.crc32Body 0 (Crc.crc32Body 0 (Crc.crc32Body 0 0 table) hashes) descr.encode
  return table ++ hashes ++ { descr with crc := crc.toNat }.encode

namespace Codec

variable (lib : Codec)

/-- `compress_file`: what it writes for a file, when the threads write in some order. -/
def compressFile (type : ComprType) (logChunkSize : ℕ) (signer : Option Signer) (order : List ℕ)
    (src : Bytes) : Option Bytes := do
  let chunkSize := 2 ^ logChunkSize
  let alignment := chunkAlign type (chunkSize = hwChunkSize)
  let small : Bool := (BitVec.ofNat 32 src.length).toInt < 2 * 4096
  let packed ← (chunksOf chunkSize src).mapM (lib.packChunk type chunkSize alignment small)
  let s := writeChunks packed order
  let descr ← prepareFileDescr type packed.length src.length logChunkSize signer
  let moved ← moveLoop alignment (s.area true) 0 (chunkTable packed s)
  let size := (s.area true).length + (s.area false).length
  let footer ← writeFooter packed moved.2 descr signer
  return moved.1 ++ s.area false ++ List.replicate (align size compExtentSize - size) 0 ++ footer

/-- `compress_file_tune` and `add_compression_info`: nothing is written for an empty file. -/
def compressFileTune (type : ComprType) (logChunkSize : ℕ) (signer : Option Signer)
    (src : Bytes) : Option Bytes := do
  let chunkSize := 2 ^ logChunkSize
  let packed ← (chunksOf chunkSize src).mapM
    (lib.packChunk type chunkSize (chunkAlign type true) (src.length < 2 * 4096))
  let s := writeChunks packed (List.range packed.length)
  let size := (s.area true).length + (s.area false).length
  if packed = [] then return []
  else
    let descr ← prepareFileDescr type packed.length src.length logChunkSize signer
    let footer ← writeFooter packed (chunkTable packed s) descr signer
    return s.area true ++ s.area false ++
      List.replicate (align size compExtentSize - size) 0 ++ footer

end Codec

/-! ### The chunks of a file -/

lemma le_align {x a : ℕ} (ha : 0 < a) : x ≤ align x a := by
  have hmod := Nat.mod_lt (x + a - 1) ha
  have hdiv := Nat.div_add_mod' (x + a - 1) a
  rw [align]
  omega

/-- Aligning does not leave an aligned bound. -/
lemma align_le {x a b : ℕ} (ha : 0 < a) (hb : a ∣ b) (hx : x ≤ b) : align x a ≤ b := by
  obtain ⟨k, rfl⟩ := hb
  have hdiv : (x + a - 1) / a ≤ k := by
    refine Nat.lt_succ_iff.1 ((Nat.div_lt_iff_lt_mul ha).2 ?_)
    rw [Nat.succ_mul, Nat.mul_comm k]
    omega
  rw [align, Nat.mul_comm a]
  exact Nat.mul_le_mul_right a hdiv

lemma flatMap_range_chunks (chunkSize : ℕ) (src : Bytes) (n : ℕ) :
    ((List.range n).flatMap fun i => (src.drop (i * chunkSize)).take chunkSize) =
      src.take (n * chunkSize) := by
  induction n with
  | zero => rw [Nat.zero_mul, List.take_zero, List.range_zero, List.flatMap_nil]
  | succ n ih =>
      rw [List.range_succ, List.flatMap_append, ih, List.flatMap_singleton, Nat.succ_mul,
        List.take_add]

/-- The chunks together are the file. -/
lemma flatten_chunksOf {chunkSize : ℕ} (hpos : 0 < chunkSize) (src : Bytes) :
    (chunksOf chunkSize src).flatten = src := by
  rw [chunksOf, ← List.flatMap_def, flatMap_range_chunks, Nat.div_mul_cancel, List.take_of_length_le]
  · exact le_align hpos
  · exact Dvd.intro_left _ rfl

/-- A chunk is not empty, and not too large. -/
lemma length_of_mem_chunksOf {chunkSize : ℕ} {src x : Bytes} (hpos : 0 < chunkSize)
    (h : x ∈ chunksOf chunkSize src) : x ≠ [] ∧ x.length ≤ chunkSize := by
  obtain ⟨i, hi, rfl⟩ := List.mem_map.1 h
  rw [List.mem_range, align, Nat.mul_div_cancel _ hpos, Nat.lt_div_iff_mul_lt hpos] at hi
  refine ⟨?_, List.length_take_le _ _⟩
  rw [← List.length_pos_iff, List.length_take, List.length_drop]
  have hlt : i * chunkSize < src.length := by omega
  omega

/-- zlib and lzo give back what they have compressed; zlib does not mind zeros behind it. -/
structure Codec.Lawful (lib : Codec) : Prop where
  inflate_deflate : ∀ gzip x out, lib.deflate gzip x x.length = (1, out) →
    ∀ padding room, x.length ≤ room →
      Finished (lib.inflate gzip (out ++ List.replicate padding 0) room).1 ∧
        (lib.inflate gzip (out ++ List.replicate padding 0) room).2 = x
  lzoDecompress_lzoCompress : ∀ x out, lib.lzoCompress x = (0, out) →
    ∀ room, x.length ≤ room → lib.lzoDecompress out room = (0, x)

/-- The chunk that is written can be read. -/
structure PackedChunk.Packs (lib : Codec) (type : ComprType) (chunkSize alignKept : ℕ)
    (chunk : PackedChunk) (x : Bytes) : Prop where
  pos : 0 < chunk.lenBytes
  le_chunkSize : chunk.lenBytes ≤ chunkSize
  le_length : chunk.lenBytes ≤ chunk.data.length
  length_le : chunk.data.length ≤ chunk.lenBytes + 16
  read : if chunk.uncompressed then chunk.data.take chunk.lenBytes = x
    else lib.decompressor type (chunk.data.take chunk.lenBytes) chunkSize = (0, x)
  length_kept : chunk.uncompressed = true → chunk.data.length = align chunk.lenBytes alignKept

lemma chunkAlign_pos (type : ComprType) (hardware : Bool) : 0 < chunkAlign type hardware := by
  cases type <;> cases hardware <;> decide

lemma chunkAlign_le (type : ComprType) (hardware : Bool) : chunkAlign type hardware ≤ 16 := by
  cases type <;> cases hardware <;> decide

lemma packs_keepChunk {lib : Codec} {type : ComprType} {chunkSize alignKept : ℕ} {x : Bytes}
    (hne : x ≠ []) (hle : x.length ≤ chunkSize) (halign : 0 < alignKept)
    (hsixteen : alignKept ≤ 16) : (keepChunk alignKept x).Packs lib type chunkSize alignKept x := by
  have hlength : (keepChunk alignKept x).data.length = align x.length alignKept := by
    have hle := le_align (x := x.length) halign
    simp only [keepChunk, List.length_append, List.length_replicate]
    omega
  refine ⟨List.length_pos_iff.2 hne, hle, ?_, ?_, ?_, fun _ => hlength⟩
  · rw [hlength]
    exact le_align halign
  · rw [hlength]
    refine (Nat.div_mul_le_self _ _).trans ?_
    change x.length + alignKept - 1 ≤ x.length + 16
    omega
  · rw [if_pos (show (keepChunk alignKept x).uncompressed = true from rfl)]
    exact List.take_left

/-- A compressor leaves no more room than there was. -/
lemma left_le_of_compressor {lib : Codec} {type : ComprType} {x obuff : Bytes} {ret : ℤ} {olen : ℕ}
    (h : lib.compressor type x = some (ret, obuff, olen)) : olen ≤ x.length := by
  have hzlib : ∀ {gzip}, lib.compressZlibGzipChunk gzip x = some (ret, obuff, olen) →
      olen ≤ x.length := by
    intro gzip h
    simp only [Codec.compressZlibGzipChunk] at h
    split_ifs at h <;> simp only [Option.some.injEq, Prod.mk.injEq] at h <;> omega
  cases type with
  | zlib | zhw | gzip => exact hzlib h
  | lzo =>
      simp only [Codec.compressor, Codec.compressLzoChunk] at h
      split_ifs at h <;> simp only [Option.some.injEq, Prod.mk.injEq] at h <;> omega
  | xz | lzma =>
      simp only [Codec.compressor, Option.some.injEq, Prod.mk.injEq] at h
      omega

section Lawful

variable {lib : Codec} (hlib : lib.Lawful)
include hlib

/-- What zlib has compressed is decompressed. -/
lemma inflate_compressZlibGzipChunk {gzip : Bool} {x obuff : Bytes} {olen : ℕ}
    (h : lib.compressZlibGzipChunk gzip x = some (0, obuff, olen)) (hpos : 0 < olen)
    (hlt : olen ≠ x.length) :
    obuff.length = x.length - olen ∧ ∀ padding room, x.length ≤ room →
      Finished (lib.inflate gzip (obuff ++ List.replicate padding 0) room).1 ∧
        (lib.inflate gzip (obuff ++ List.replicate padding 0) room).2 = x := by
  simp only [Codec.compressZlibGzipChunk] at h
  split_ifs at h with hkept hend hend
  · simp only [Option.some.injEq, Prod.mk.injEq] at h
    exact absurd h.2.2.symm hlt
  · simp only [Option.some.injEq, Prod.mk.injEq] at h
    exact absurd h.2.2.symm hlt
  · simp only [Option.some.injEq, Prod.mk.injEq, true_and] at h
    obtain ⟨rfl, rfl⟩ := h
    exact ⟨by omega, hlib.inflate_deflate gzip x _ (Prod.ext hend rfl)⟩

/-- What a compressor has compressed is decompressed, with the zeros behind it that it may get. -/
lemma decompressor_compressor {type : ComprType} {x obuff : Bytes} {olen : ℕ}
    (h : lib.compressor type x = some (0, obuff, olen)) (hpos : 0 < olen) (hlt : olen ≠ x.length) :
    obuff.length = x.length - olen ∧ ∀ padding room, (chunkAlign type true = 1 → padding = 0) →
      x.length ≤ room →
      lib.decompressor type (obuff ++ List.replicate padding 0) room = (0, x) := by
  have hzlib : ∀ {gzip}, lib.compressZlibGzipChunk gzip x = some (0, obuff, olen) →
      obuff.length = x.length - olen ∧ ∀ padding room, x.length ≤ room →
        Finished (lib.inflate gzip (obuff ++ List.replicate padding 0) room).1 ∧
          (lib.inflate gzip (obuff ++ List.replicate padding 0) room).2 = x :=
    fun h => inflate_compressZlibGzipChunk hlib h hpos hlt
  cases type with
  | zlib | zhw =>
      obtain ⟨hlength, hinflate⟩ := hzlib h
      refine ⟨hlength, fun padding room _ hroom => ?_⟩
      obtain ⟨hfinished, hx⟩ := hinflate padding room hroom
      rw [Codec.decompressor, Codec.decompressZlib, if_pos hfinished, hx]
  | gzip =>
      obtain ⟨hlength, hinflate⟩ := hzlib h
      refine ⟨hlength, fun padding room _ hroom => ?_⟩
      obtain ⟨hfinished, hx⟩ := hinflate padding room hroom
      rw [Codec.decompressor, Codec.decompressGzip, if_pos hfinished, hx]
  | lzo =>
      simp only [Codec.compressor, Codec.compressLzoChunk] at h
      split_ifs at h with hret hkept <;> simp only [Option.some.injEq, Prod.mk.injEq] at h
      · exact absurd h.1 hret
      · exact absurd h.2.2.symm hlt
      · obtain ⟨-, rfl, rfl⟩ := h
        refine ⟨by omega, fun padding room hpadding hroom => ?_⟩
        rw [hpadding rfl, List.replicate_zero, List.append_nil]
        exact hlib.lzoDecompress_lzoCompress x _ (Prod.ext (not_not.1 hret) rfl) room hroom
  | xz | lzma =>
      rw [Codec.compressor] at h
      simp only [Option.some.injEq, Prod.mk.injEq, enotsup] at h
      omega

/-- A chunk that is compressed can be read. -/
lemma packs_compressed {type : ComprType} {chunkSize alignKept : ℕ} {x obuff : Bytes} {olen : ℕ}
    (hcompress : lib.compressor type x = some (0, obuff, olen)) (hx : x.length ≤ chunkSize)
    (hlt : olen ≠ x.length) (hpos : 0 < olen) (hless : olen < x.length) :
    let len := align (x.length - olen) (chunkAlign type (chunkSize = hwChunkSize))
    (⟨false, len, (obuff ++ List.replicate len 0).take len⟩ : PackedChunk).Packs lib type chunkSize
      alignKept x := by
  intro len
  obtain ⟨hlength, hread⟩ := decompressor_compressor hlib hcompress hpos hlt
  have halign := chunkAlign_pos type (chunkSize = hwChunkSize)
  have hle : obuff.length ≤ len := hlength ▸ le_align halign
  have hdata : (obuff ++ List.replicate len 0).take len =
      obuff ++ List.replicate (len - obuff.length) 0 := by
    rw [List.take_append, List.take_of_length_le hle, List.take_replicate,
      min_eq_left (Nat.sub_le _ _)]
  have hsize : (obuff ++ List.replicate (len - obuff.length) (0 : UInt8)).length = len := by
    rw [List.length_append, List.length_replicate]
    omega
  -- the alignment of the hardware divides the size of its chunks
  have hchunk : len ≤ chunkSize := by
    refine align_le halign ?_ (by omega)
    by_cases hhardware : chunkSize = hwChunkSize
    · subst hhardware
      cases type <;> decide
    · rw [decide_eq_false hhardware]
      cases type <;> exact one_dvd _
  have hpadding : chunkAlign type true = 1 → len - obuff.length = 0 := by
    intro hone
    have halign : chunkAlign type (chunkSize = hwChunkSize) = 1 := by
      cases type <;> first | rfl | exact absurd hone (by decide)
    have hlen : len = align (x.length - olen) 1 := congrArg (align _) halign
    rw [hlen, align, Nat.add_sub_cancel, Nat.div_one, Nat.mul_one]
    omega
  refine ⟨?_, hchunk, ?_, ?_, ?_, fun h => absurd h Bool.false_ne_true⟩
  · exact (by omega : 0 < x.length - olen).trans_le (le_align halign)
  · rw [hdata, hsize]
  · rw [hdata, hsize]
    exact Nat.le_add_right len 16
  · rw [if_neg Bool.false_ne_true, hdata, List.take_of_length_le hsize.le]
    exact hread _ _ hpadding hx

/-- What a thread writes of a chunk can be read. -/
lemma packs_packChunk {type : ComprType} {chunkSize alignKept : ℕ} {small : Bool} {x : Bytes}
    {chunk : PackedChunk} (h : lib.packChunk type chunkSize alignKept small x = some chunk)
    (hne : x ≠ []) (hx : x.length ≤ chunkSize) (halign : 0 < alignKept)
    (hsixteen : alignKept ≤ 16) : chunk.Packs lib type chunkSize alignKept x := by
  have hpos := List.length_pos_iff.2 hne
  rw [Codec.packChunk] at h
  split_ifs at h
  · obtain rfl := Option.some.inj h
    exact packs_keepChunk hne hx halign hsixteen
  · obtain ⟨⟨ret, obuff, olen⟩, hcompress, h⟩ := Option.bind_eq_some_iff.1 h
    dsimp only at h
    split_ifs at h with hret hkept
    · obtain rfl := Option.some.inj h
      exact packs_keepChunk hne hx halign hsixteen
    · obtain rfl := Option.some.inj h
      obtain rfl := not_not.1 hret
      push Not at hkept
      obtain ⟨hlt, hratio⟩ := hkept
      have hless : olen < x.length := lt_of_le_of_ne (left_le_of_compressor hcompress) hlt.symm
      -- a chunk that fills its room is not counted as compressed
      have hleft : 0 < olen := by
        by_contra hzero
        obtain rfl : olen = 0 := by omega
        rw [Nat.sub_zero, Nat.mul_div_cancel_left _ hpos] at hratio
        exact absurd hratio (by decide)
      exact packs_compressed hlib hcompress hx hlt.symm hleft hless

end Lawful

/-! ### Where the chunks are -/

lemma chunkAt_eq {packed : List PackedChunk} {i : ℕ} (hi : i < packed.length) :
    chunkAt packed i = packed[i] := by
  rw [chunkAt, List.getD_eq_getElem?_getD, List.getElem?_eq_getElem hi, Option.getD_some]

lemma map_chunkAt (packed : List PackedChunk) :
    (List.range packed.length).map (chunkAt packed) = packed := by
  refine List.ext_getElem (by rw [List.length_map, List.length_range]) fun i hi hi' => ?_
  rw [List.getElem_map, List.getElem_range, chunkAt_eq hi']

/-- The chunks that stay as they are, or the others, one after the other. -/
def joined (packed : List PackedChunk) (uncompressed : Bool) : Bytes :=
  (packed.filter (·.uncompressed = uncompressed)).flatMap (·.data)

/-- The temporary files hold the chunks in the order in which they were written. -/
lemma area_writeChunks (packed : List PackedChunk) (order : List ℕ) (k : Bool) :
    (writeChunks packed order).area k = joined (order.map (chunkAt packed)) k := by
  rw [writeChunks, Areas.area_foldl (fun i => (chunkAt packed i).uncompressed)
    (fun i => (chunkAt packed i).data), List.nil_append, joined, List.filter_map, List.flatMap_map]
  rfl

lemma area_writeChunks_range (packed : List PackedChunk) (k : Bool) :
    (writeChunks packed (List.range packed.length)).area k = joined packed k := by
  rw [area_writeChunks, map_chunkAt]

lemma length_area_writeChunks {packed : List PackedChunk} {order : List ℕ}
    (horder : order.Perm (List.range packed.length)) (k : Bool) :
    ((writeChunks packed order).area k).length = (joined packed k).length := by
  have hperm : (order.map (chunkAt packed)).Perm packed :=
    (horder.map (chunkAt packed)).trans (.of_eq (map_chunkAt packed))
  rw [area_writeChunks, joined, joined]
  exact ((hperm.filter _).flatMap_right _).length_eq

/-- What an extent says of its chunk, and where the chunk is in the temporary files. -/
structure Noted (s : Areas Bool ℕ UInt8) (e : CompExtent) (chunk : PackedChunk) : Prop where
  flags : e.flags = if chunk.uncompressed then 1 else 0
  lenBytes : e.lenBytes = chunk.lenBytes
  kept : chunk.uncompressed = true → At (s.area true) e.start chunk.data
  other : chunk.uncompressed = false →
    ∃ start, e.start = (s.area true).length + start ∧ At (s.area false) start chunk.data

/-- The table notes every chunk, in whatever order they were written. -/
lemma noted_chunkTable (packed : List PackedChunk) (order : List ℕ)
    (horder : ∀ i < packed.length, i ∈ order) :
    List.Forall₂ (Noted (writeChunks packed order))
      (chunkTable packed (writeChunks packed order)) packed := by
  refine List.forall₂_iff_get.2 ⟨by rw [chunkTable, List.length_mapIdx], fun i hi hi' => ?_⟩
  have hstored := Areas.stored_foldl (fun i => (chunkAt packed i).uncompressed)
    (fun i => (chunkAt packed i).data) order ⟨fun _ => [], fun _ => 0⟩ (Or.inl (horder i hi'))
  change At ((writeChunks packed order).area (chunkAt packed i).uncompressed)
    ((writeChunks packed order).start i) (chunkAt packed i).data at hstored
  rw [chunkAt_eq hi'] at hstored
  simp only [List.get_eq_getElem, chunkTable, List.getElem_mapIdx]
  cases hkept : packed[i].uncompressed with
  | true =>
      rw [hkept] at hstored
      rw [if_pos rfl]
      exact ⟨by rw [hkept, if_pos rfl], rfl, fun _ => hstored,
        fun h => absurd (hkept.symm.trans h) (by decide)⟩
  | false =>
      rw [hkept] at hstored
      rw [if_neg Bool.false_ne_true]
      exact ⟨by rw [hkept, if_neg Bool.false_ne_true], rfl,
        fun h => absurd (hkept.symm.trans h) (by decide), fun _ => ⟨_, Nat.add_comm _ _, hstored⟩⟩

/-- The extent leads to its chunk. -/
structure Placed (body : Bytes) (e : CompExtent) (chunk : PackedChunk) : Prop where
  flags : e.flags = if chunk.uncompressed then 1 else 0
  lenBytes : e.lenBytes = chunk.lenBytes
  found : At body e.start chunk.data

lemma Noted.placed {s : Areas Bool ℕ UInt8} {e : CompExtent} {chunk : PackedChunk}
    (h : Noted s e chunk) : Placed (s.area true ++ s.area false) e chunk := by
  refine ⟨h.flags, h.lenBytes, ?_⟩
  cases hkept : chunk.uncompressed with
  | true => exact (h.kept hkept).append _
  | false =>
      obtain ⟨start, hstart, hat⟩ := h.other hkept
      rw [hstart]
      exact hat.prepend _

/-- Bringing the chunks that stay as they are into their order leaves every extent at its chunk. -/
lemma moveLoop_eq {s : Areas Bool ℕ UInt8} {alignment : ℕ} {exts : List CompExtent}
    {packed : List PackedChunk} (hnoted : List.Forall₂ (Noted s) exts packed)
    (hkept : ∀ chunk ∈ packed, chunk.uncompressed = true →
      chunk.data.length = align chunk.lenBytes alignment) (pre : Bytes)
    (hlength : (pre ++ joined packed true).length = (s.area true).length) :
    ∃ exts', moveLoop alignment (s.area true) pre.length exts = some (joined packed true, exts') ∧
      List.Forall₂ (Placed (pre ++ joined packed true ++ s.area false)) exts' packed := by
  induction hnoted generalizing pre with
  | nil => exact ⟨[], rfl, .nil⟩
  | @cons e chunk exts packed hnote _ ih =>
      have hrest : ∀ c ∈ packed, c.uncompressed = true → c.data.length = align c.lenBytes alignment :=
        fun c hc => hkept c (List.mem_cons_of_mem chunk hc)
      have hflag : e.Uncompressed ↔ chunk.uncompressed = true := by
        rw [CompExtent.Uncompressed, hnote.flags]
        cases chunk.uncompressed <;> decide
      cases huncompressed : chunk.uncompressed with
      | true =>
          have hsize := hkept chunk List.mem_cons_self huncompressed
          have hat := hnote.kept huncompressed
          have hread : ((s.area true).drop e.start).take (align e.lenBytes alignment) =
              chunk.data := by
            rw [hnote.lenBytes, ← hsize, hat.take_drop]
          have hjoined : joined (chunk :: packed) true = chunk.data ++ joined packed true := by
            rw [joined, List.filter_cons_of_pos (by simpa using huncompressed), List.flatMap_cons,
              joined]
          rw [hjoined, ← List.append_assoc] at hlength ⊢
          obtain ⟨exts', hmove, hplaced⟩ := ih hrest (pre ++ chunk.data) hlength
          refine ⟨{ e with start := pre.length } :: exts', ?_, .cons ?_ hplaced⟩
          · rw [moveLoop, if_pos (hflag.2 huncompressed)]
            dsimp only
            rw [hread, hnote.lenBytes, ← hsize, if_neg (not_not.2 rfl), ← List.length_append, hmove]
            rfl
          · refine ⟨hnote.flags, hnote.lenBytes, ?_⟩
            exact ((At.last pre chunk.data).append _).append _
      | false =>
          obtain ⟨start, hstart, hat⟩ := hnote.other huncompressed
          have hjoined : joined (chunk :: packed) true = joined packed true := by
            rw [joined, List.filter_cons_of_neg (by simp [huncompressed]), joined]
          rw [hjoined] at hlength ⊢
          obtain ⟨exts', hmove, hplaced⟩ := ih hrest pre hlength
          refine ⟨e :: exts', ?_, .cons ⟨hnote.flags, hnote.lenBytes, ?_⟩ hplaced⟩
          · rw [moveLoop, if_neg (by rw [hflag, huncompressed]; decide), hmove]
            rfl
          · rw [hstart, ← hlength]
            exact hat.prepend _

/-! ### What is written behind the chunks -/

/-- The descriptor that is written says what the file is. -/
lemma describes_prepareFileDescr {type : ComprType} {chunks fileSize logChunkSize : ℕ}
    {signer : Option Signer} {descr : CompFileDescr}
    (h : prepareFileDescr type chunks fileSize logChunkSize signer = some descr)
    (hchunks : chunks < 2 ^ 16) (hlog : logChunkSize < 31) (crc : BitVec 32) :
    { descr with crc := crc.toNat }.Describes type (signer.map Signer.alg) chunks logChunkSize := by
  obtain ⟨magic, hmagic, rfl⟩ := Option.map_eq_some_iff.1 h
  have hlength : magic.length = 3 := by
    cases type <;> cases hmagic <;> decide
  have hfirst : ∀ first : UInt8, (first :: magic).drop 1 = magic := fun _ => rfl
  refine ⟨⟨?_, hchunks, (by decide : comprLayoutVer < 2 ^ 16), BitVec.isLt _, crc.isLt, ?_⟩,
    ?_, ?_, ?_, rfl, rfl, rfl⟩
  · rw [List.length_cons, hlength]
  · exact hlog.trans (by decide)
  · dsimp only [CompFileDescr.comprType]
    rw [hfirst]
    cases type <;> cases hmagic <;> decide
  · cases signer with
    | none => exact (by decide : [HashAlg.md5, .sha1, .sha256].find?
        (fun h => some comprDescrStart = some h.auth) = none)
    | some signer =>
        change [HashAlg.md5, .sha1, .sha256].find? (fun h => some signer.alg.auth = some h.auth) =
          some signer.alg
        cases signer.alg <;> decide
  · intro hnone
    obtain rfl := Option.map_eq_none_iff.1 hnone
    rfl

lemma length_hashTable {signer : Signer} {packed : List PackedChunk} {descr : CompFileDescr}
    {hashes : Bytes} (h : signer.hashTable packed descr = some hashes) :
    hashes.length = hashesSize (some signer.alg) packed.length := by
  obtain ⟨signature, hsignature, hhashes⟩ := Option.bind_eq_some_iff.1 h
  obtain rfl := Option.some.inj hhashes
  have hchunks : (packed.flatMap fun chunk =>
      signer.hash (chunk.data.take chunk.lenBytes)).length = packed.length * signer.alg.hashLen := by
    rw [List.length_flatMap, List.map_congr_left fun chunk _ => signer.length_hash _,
      List.map_const', List.sum_replicate, Nat.nsmul_eq_mul]
  rw [List.length_append, List.length_append, hchunks, signer.length_hash,
    signer.length_encrypt _ _ hsignature, hashesSize, Nat.mul_succ, Nat.mul_comm]

/-- The end of the file is the table, the hashes and the descriptor. -/
lemma writeFooter_eq_some {packed : List PackedChunk} {exts : List CompExtent}
    {descr : CompFileDescr} {signer : Option Signer} {footer : Bytes}
    (h : writeFooter packed exts descr signer = some footer) :
    ∃ (hashes : Bytes) (crc : BitVec 32),
      footer = exts.flatMap CompExtent.encode ++
        (hashes ++ { descr with crc := crc.toNat }.encode) ∧
      hashes.length = hashesSize (signer.map Signer.alg) packed.length := by
  rw [writeFooter] at h
  obtain ⟨hashes, hhashes, hfooter⟩ := Option.bind_eq_some_iff.1 h
  refine ⟨hashes, _, by rw [← List.append_assoc]; exact (Option.some.inj hfooter).symm, ?_⟩
  cases signer with
  | none =>
      obtain rfl := Option.some.inj hhashes
      rfl
  | some signer => exact length_hashTable hhashes

/-! ### Round trips -/

lemma forall₂_of_mapM {α β : Type} {f : α → Option β} {xs : List α} {ys : List β}
    (h : xs.mapM f = some ys) : List.Forall₂ (fun y x => f x = some y) ys xs := by
  induction xs generalizing ys with
  | nil =>
      rw [List.mapM_nil] at h
      obtain rfl := Option.some.inj h
      exact .nil
  | cons x xs ih =>
      rw [List.mapM_cons] at h
      obtain ⟨y, hy, h⟩ := Option.bind_eq_some_iff.1 h
      obtain ⟨ys', hys, h⟩ := Option.bind_eq_some_iff.1 h
      obtain rfl := Option.some.inj h
      exact .cons hy (ih hys)

section RoundTrip

variable {lib : Codec} {type : ComprType} {logChunkSize alignKept : ℕ} {packed : List PackedChunk}

/-- An extent that leads to its chunk is read. -/
lemma Placed.reads {chunkSize : ℕ} {body x : Bytes} {e : CompExtent} {chunk : PackedChunk}
    (hplaced : Placed body e chunk) (hpacks : chunk.Packs lib type chunkSize alignKept x)
    (rest : Bytes) : lib.Reads type chunkSize (body ++ rest) e x := by
  have hlength : (chunk.data.take chunk.lenBytes).length = chunk.lenBytes :=
    List.length_take_of_le hpacks.le_length
  have hflag : e.Uncompressed ↔ chunk.uncompressed = true := by
    rw [CompExtent.Uncompressed, hplaced.flags]
    cases chunk.uncompressed <;> decide
  refine ⟨chunk.data.take chunk.lenBytes, (hplaced.found.take _).append rest, ?_, ?_, ?_, ?_⟩
  · rw [hlength, hplaced.lenBytes]
  · rw [← List.length_pos_iff, hlength]
    exact hpacks.pos
  · rw [hlength]
    exact hpacks.le_chunkSize
  · simp only [hflag]
    exact hpacks.read

lemma Placed.fits {body x : Bytes} {e : CompExtent} {chunk : PackedChunk}
    (hplaced : Placed body e chunk) (hpacks : chunk.Packs lib type (2 ^ logChunkSize) alignKept x)
    (hbody : body.length < 2 ^ 63) (hlog : logChunkSize < 31) : e.Fits := by
  have hle := hplaced.found.le_length
  have hpow : 2 ^ logChunkSize < 2 ^ 32 := Nat.pow_lt_pow_right (by decide) (by omega)
  refine ⟨?_, ?_, by omega⟩
  · rw [hplaced.flags]
    split <;> decide
  · rw [hplaced.lenBytes]
    exact hpacks.le_chunkSize.trans_lt hpow

/-- A file is decoded if every extent leads to its chunk. -/
lemma decodeFile_of_placed {signer : Option Signer} {xs : List Bytes} {exts : List CompExtent}
    {body footer : Bytes} {descr : CompFileDescr} {fileSize : ℕ}
    (hpacks : List.Forall₂ (PackedChunk.Packs lib type (2 ^ logChunkSize) alignKept) packed xs)
    (hplaced : List.Forall₂ (Placed body) exts packed) (hbody : body.length < 2 ^ 63)
    (hcount : packed.length < 2 ^ 16) (hlog : logChunkSize < 31)
    (hdescr : prepareFileDescr type packed.length fileSize logChunkSize signer = some descr)
    (hfooter : writeFooter packed exts descr signer = some footer) (padding : Bytes) :
    lib.decodeFile (body ++ padding ++ footer) = some (0, xs.flatten, signer.isSome) := by
  obtain ⟨hashes, crc, rfl, hhashes⟩ := writeFooter_eq_some hfooter
  have hlength : exts.length = packed.length := hplaced.length_eq
  have hexts : ∀ e ∈ exts, e.Fits := by
    intro e he
    obtain ⟨i, hi, rfl⟩ := List.getElem_of_mem he
    have hi' : i < packed.length := hlength ▸ hi
    have hi'' : i < xs.length := hpacks.length_eq ▸ hi'
    exact (hplaced.get hi hi').fits (hpacks.get hi' hi'') hbody hlog
  have hreads : List.Forall₂ (lib.Reads type (2 ^ logChunkSize) (body ++ padding ++
      (exts.flatMap CompExtent.encode ++ (hashes ++ { descr with crc := crc.toNat }.encode))))
      exts xs := by
    refine List.forall₂_iff_get.2 ⟨hlength.trans hpacks.length_eq, fun i hi hi'' => ?_⟩
    have hi' : i < packed.length := hlength ▸ hi
    rw [List.append_assoc]
    exact (hplaced.get hi hi').reads (hpacks.get hi' hi'') _
  have hdescribes := describes_prepareFileDescr hdescr hcount hlog crc
  rw [← hlength] at hdescribes hhashes
  rw [lib.decodeFile_eq rfl hdescribes hlog hhashes hexts,
    lib.decompressLoop_eq hreads hexts, Option.map_some, List.nil_append, Option.isSome_map]

/-- What the threads have made of the chunks can be read. -/
lemma packs_of_mapM (hlib : lib.Lawful) {small : Bool} {src : Bytes}
    (hpacked : (chunksOf (2 ^ logChunkSize) src).mapM
      (lib.packChunk type (2 ^ logChunkSize) alignKept small) = some packed)
    (halign : 0 < alignKept) (hsixteen : alignKept ≤ 16) :
    List.Forall₂ (PackedChunk.Packs lib type (2 ^ logChunkSize) alignKept) packed
      (chunksOf (2 ^ logChunkSize) src) := by
  have hall := forall₂_of_mapM hpacked
  refine List.forall₂_iff_get.2 ⟨hall.length_eq, fun i hi hi' => ?_⟩
  obtain ⟨hne, hle⟩ := length_of_mem_chunksOf (Nat.two_pow_pos logChunkSize)
    (List.getElem_mem hi')
  exact packs_packChunk hlib (hall.get hi hi') hne hle halign hsixteen

/-- The chunks are not too long for the offsets in the table. -/
lemma length_joined_lt {xs : List Bytes}
    (hpacks : List.Forall₂ (PackedChunk.Packs lib type (2 ^ logChunkSize) alignKept) packed xs)
    (hcount : packed.length < 2 ^ 16) (hlog : logChunkSize < 31) (k : Bool) :
    (joined packed k).length < 2 ^ 62 := by
  have hpow : 2 ^ logChunkSize ≤ 2 ^ 30 := Nat.pow_le_pow_right (by decide) (by omega)
  have hchunk : ∀ n ∈ (packed.filter (·.uncompressed = k)).map (·.data.length), n ≤ 2 ^ 31 := by
    intro n hn
    obtain ⟨chunk, hchunk, rfl⟩ := List.mem_map.1 hn
    obtain ⟨i, hi, rfl⟩ := List.getElem_of_mem (List.mem_of_mem_filter hchunk)
    have hpack := hpacks.get hi (hpacks.length_eq ▸ hi)
    have hle := hpack.length_le
    have hsize := hpack.le_chunkSize
    simp only [List.get_eq_getElem] at hle hsize
    omega
  have hsum := List.sum_le_card_nsmul _ _ hchunk
  have hfilter := List.length_filter_le (fun chunk => decide (chunk.uncompressed = k)) packed
  rw [List.length_map, nsmul_eq_mul, Nat.cast_id] at hsum
  rw [joined, List.length_flatMap]
  exact hsum.trans_lt ((Nat.mul_le_mul_right _ hfilter).trans_lt (by omega))

/-- The loop of `compress_file` does not fail, and leaves every extent at its chunk. -/
lemma exists_moveLoop {order : List ℕ} {xs : List Bytes}
    (hpacks : List.Forall₂ (PackedChunk.Packs lib type (2 ^ logChunkSize) alignKept) packed xs)
    (horder : order.Perm (List.range packed.length)) :
    ∃ exts, moveLoop alignKept ((writeChunks packed order).area true) 0
        (chunkTable packed (writeChunks packed order)) = some (joined packed true, exts) ∧
      List.Forall₂ (Placed (joined packed true ++ (writeChunks packed order).area false)) exts
        packed := by
  have hnoted := noted_chunkTable packed order
    fun i hi => horder.mem_iff.2 (List.mem_range.2 hi)
  have hkept : ∀ chunk ∈ packed, chunk.uncompressed = true →
      chunk.data.length = align chunk.lenBytes alignKept := by
    intro chunk hchunk
    obtain ⟨i, hi, rfl⟩ := List.getElem_of_mem hchunk
    exact (hpacks.get hi (hpacks.length_eq ▸ hi)).length_kept
  have hmoved := moveLoop_eq hnoted hkept [] (length_area_writeChunks horder true).symm
  rwa [List.length_nil, List.nil_append] at hmoved

end RoundTrip

/-- Nothing fails on the way: the compression has a magic, the chunks are compressed, and the file
is signed if it is to be. -/
structure Compressible (lib : Codec) (type : ComprType) (logChunkSize alignKept : ℕ) (small : Bool)
    (signer : Option Signer) (src : Bytes) : Prop where
  magic : type.magic.isSome
  chunks : ∀ x ∈ chunksOf (2 ^ logChunkSize) src,
    (lib.packChunk type (2 ^ logChunkSize) alignKept small x).isSome
  signs : ∀ s, signer = some s → ∀ bs, (s.encrypt bs).isSome

section Compressible

variable {lib : Codec} {type : ComprType} {logChunkSize alignKept : ℕ} {small : Bool}
  {signer : Option Signer} {src : Bytes}

lemma Compressible.exists_packed
    (h : Compressible lib type logChunkSize alignKept small signer src) :
    ∃ packed, (chunksOf (2 ^ logChunkSize) src).mapM
      (lib.packChunk type (2 ^ logChunkSize) alignKept small) = some packed := by
  have hall : ∀ xs : List Bytes, (∀ x ∈ xs,
      (lib.packChunk type (2 ^ logChunkSize) alignKept small x).isSome) →
      ∃ packed, xs.mapM (lib.packChunk type (2 ^ logChunkSize) alignKept small) = some packed := by
    intro xs hxs
    induction xs with
    | nil => exact ⟨[], List.mapM_nil⟩
    | cons x xs ih =>
        obtain ⟨chunk, hchunk⟩ := Option.isSome_iff_exists.1 (hxs x List.mem_cons_self)
        obtain ⟨packed, hpacked⟩ := ih fun y hy => hxs y (List.mem_cons_of_mem x hy)
        exact ⟨chunk :: packed, by rw [List.mapM_cons, hchunk, hpacked]; rfl⟩
  exact hall _ h.chunks

lemma Compressible.exists_descr
    (h : Compressible lib type logChunkSize alignKept small signer src) (chunks : ℕ) :
    ∃ descr, prepareFileDescr type chunks src.length logChunkSize signer = some descr := by
  obtain ⟨magic, hmagic⟩ := Option.isSome_iff_exists.1 h.magic
  exact ⟨_, Option.map_eq_some_iff.2 ⟨magic, hmagic, rfl⟩⟩

lemma Compressible.exists_footer
    (h : Compressible lib type logChunkSize alignKept small signer src) (packed : List PackedChunk)
    (exts : List CompExtent) (descr : CompFileDescr) :
    ∃ footer, writeFooter packed exts descr signer = some footer := by
  refine Option.isSome_iff_exists.1 ?_
  cases hsigner : signer with
  | none => rfl
  | some s =>
      obtain ⟨signature, hsignature⟩ := Option.isSome_iff_exists.1 (h.signs s hsigner
        (List.replicate (cryptedHashLen - s.alg.hashLen) 0 ++ s.hash
          (packed.flatMap (fun chunk => s.hash (chunk.data.take chunk.lenBytes)) ++
            s.hash descr.signedPart)))
      rw [writeFooter, fileHashes, Signer.hashTable, Signer.signRsa, hsignature]
      rfl

end Compressible

section Threads

variable {lib : Codec} (hlib : lib.Lawful) {type : ComprType} {logChunkSize : ℕ}
  {signer : Option Signer} {order : List ℕ} {src file : Bytes}
  (horder : order.Perm (List.range (chunksOf (2 ^ logChunkSize) src).length))
include hlib horder

/-- What the threads have made is decoded. -/
lemma decodeFile_of_compressFile (hlog : logChunkSize < 31)
    (hcount : (chunksOf (2 ^ logChunkSize) src).length < 2 ^ 16)
    (h : lib.compressFile type logChunkSize signer order src = some file) :
    lib.decodeFile file = some (0, src, signer.isSome) := by
  rw [Codec.compressFile] at h
  obtain ⟨packed, hpacked, h⟩ := Option.bind_eq_some_iff.1 h
  obtain ⟨descr, hdescr, h⟩ := Option.bind_eq_some_iff.1 h
  obtain ⟨⟨moved, exts⟩, hmove, h⟩ := Option.bind_eq_some_iff.1 h
  obtain ⟨footer, hfooter, h⟩ := Option.bind_eq_some_iff.1 h
  obtain rfl := Option.some.inj h
  have hpacks := packs_of_mapM hlib hpacked (chunkAlign_pos _ _) (chunkAlign_le _ _)
  have hlength : packed.length = (chunksOf (2 ^ logChunkSize) src).length := hpacks.length_eq
  rw [← hlength] at hcount horder
  obtain ⟨exts', hmoved, hplaced⟩ := exists_moveLoop hpacks horder
  rw [hmove, Option.some.injEq, Prod.mk.injEq] at hmoved
  obtain ⟨rfl, rfl⟩ := hmoved
  have hbody : (joined packed true ++ (writeChunks packed order).area false).length < 2 ^ 63 := by
    have htrue := length_joined_lt hpacks hcount hlog true
    have hfalse := length_joined_lt hpacks hcount hlog false
    rw [List.length_append, length_area_writeChunks horder]
    omega
  rw [decodeFile_of_placed hpacks hplaced hbody hcount hlog hdescr hfooter,
    flatten_chunksOf (Nat.two_pow_pos logChunkSize)]

/-- The threads do not fail by themselves. -/
lemma isSome_compressFile (hable : Compressible lib type logChunkSize
      (chunkAlign type (2 ^ logChunkSize = hwChunkSize))
      ((BitVec.ofNat 32 src.length).toInt < 2 * 4096) signer src) :
    (lib.compressFile type logChunkSize signer order src).isSome := by
  obtain ⟨packed, hpacked⟩ := hable.exists_packed
  obtain ⟨descr, hdescr⟩ := hable.exists_descr packed.length
  have hpacks := packs_of_mapM hlib hpacked (chunkAlign_pos _ _) (chunkAlign_le _ _)
  have hlength : packed.length = (chunksOf (2 ^ logChunkSize) src).length := hpacks.length_eq
  rw [← hlength] at horder
  obtain ⟨exts, hmoved, -⟩ := exists_moveLoop hpacks horder
  obtain ⟨footer, hfooter⟩ := hable.exists_footer packed exts descr
  simp only [Codec.compressFile, hpacked, hdescr, hmoved, hfooter, Option.bind_eq_bind,
    Option.bind_some]
  rfl

end Threads

/-- The file that is made is decoded, and one is made if nothing fails. -/
structure RoundTrips (lib : Codec) (src : Bytes) (signed : Bool) (able : Prop)
    (compressed : Option Bytes) : Prop where
  decodes : ∀ file, compressed = some file → lib.decodeFile file = some (0, src, signed)
  succeeds : able → compressed.isSome

/-- **Any order of the threads.** In whatever order the threads have written the chunks of a file,
the file is decoded, and known for signed if it is.  The descriptor holds the number of the chunks
in two bytes. -/
theorem roundTrips_compressFile {lib : Codec} (hlib : lib.Lawful) (type : ComprType)
    {logChunkSize : ℕ} (signer : Option Signer) {order : List ℕ} {src : Bytes}
    (hlog : logChunkSize < 31) (hcount : (chunksOf (2 ^ logChunkSize) src).length < 2 ^ 16)
    (horder : order.Perm (List.range (chunksOf (2 ^ logChunkSize) src).length)) :
    RoundTrips lib src signer.isSome
      (Compressible lib type logChunkSize (chunkAlign type (2 ^ logChunkSize = hwChunkSize))
        ((BitVec.ofNat 32 src.length).toInt < 2 * 4096) signer src)
      (lib.compressFile type logChunkSize signer order src) :=
  ⟨fun _ h => decodeFile_of_compressFile hlib horder hlog hcount h,
    fun hable => isSome_compressFile hlib horder hable⟩

/-- A codec that compresses bytes that are all equal, and nothing else. -/
def repeatCodec : Codec where
  deflate _ x _ :=
    if x = List.replicate x.length (x.headD 0) ∧ x.length < 256 ^ 8 then
      (1, x.headD 0 :: leBytes 8 x.length)
    else (0, [])
  inflate _ bs _ := (1, List.replicate (ofLeBytes ((bs.drop 1).take 8)) (bs.headD 0))
  uncompress _ _ := (-3, [])
  lzoCompress _ := (-1, [])
  lzoDecompress _ _ := (-1, [])

lemma lawful_repeatCodec : repeatCodec.Lawful := by
  refine ⟨fun gzip x out h padding room _ => ?_, fun x out h => ?_⟩
  · simp only [repeatCodec] at h ⊢
    split_ifs at h with hrepeat
    · obtain rfl := (Prod.mk.inj h).2
      refine ⟨Or.inr rfl, ?_⟩
      rw [List.cons_append, List.drop_succ_cons, List.drop_zero,
        List.take_left' (length_leBytes 8 x.length), ofLeBytes_leBytes, Nat.mod_eq_of_lt hrepeat.2,
        List.headD_cons]
      exact hrepeat.1.symm
    · exact absurd (Prod.mk.inj h).1 (by decide)
  · exact absurd (Prod.mk.inj h).1 (by decide)

/-- Two chunks of silence. -/
def silence : Bytes := List.replicate 8192 0

lemma length_chunksOf (chunkSize : ℕ) (src : Bytes) :
    (chunksOf chunkSize src).length = align src.length chunkSize / chunkSize := by
  rw [chunksOf, List.length_map, List.length_range]

lemma length_chunksOf_silence : (chunksOf (2 ^ 12) silence).length = 2 := by
  rw [length_chunksOf, silence, List.length_replicate]
  rfl

/-- The second chunk is written first. -/
theorem roundTrips_silence :
    RoundTrips repeatCodec silence (none : Option Signer).isSome
      (Compressible repeatCodec .zlib 12 (chunkAlign .zlib (2 ^ 12 = hwChunkSize))
        ((BitVec.ofNat 32 silence.length).toInt < 2 * 4096) none silence)
      (repeatCodec.compressFile .zlib 12 none [1, 0] silence) :=
  roundTrips_compressFile lawful_repeatCodec .zlib none (by decide)
    (by rw [length_chunksOf_silence]; decide)
    (by rw [length_chunksOf_silence]; exact List.Perm.swap 0 1 [])

/-- **Without threads.** A file that is not empty is decoded. -/
theorem roundTrips_compressFileTune {lib : Codec} (hlib : lib.Lawful) (type : ComprType)
    {logChunkSize : ℕ} (signer : Option Signer) {src : Bytes} (hsrc : src ≠ [])
    (hlog : logChunkSize < 31) (hcount : (chunksOf (2 ^ logChunkSize) src).length < 2 ^ 16) :
    RoundTrips lib src signer.isSome
      (Compressible lib type logChunkSize (chunkAlign type true) (src.length < 2 * 4096) signer src)
      (lib.compressFileTune type logChunkSize signer src) := by
  have hflatten := flatten_chunksOf (Nat.two_pow_pos logChunkSize) src
  have hne : ∀ {packed small}, (chunksOf (2 ^ logChunkSize) src).mapM (lib.packChunk type
      (2 ^ logChunkSize) (chunkAlign type true) small) = some packed → packed ≠ [] := by
    intro packed small hpacked
    rintro rfl
    have hpacks := packs_of_mapM hlib hpacked (chunkAlign_pos _ _) (chunkAlign_le _ _)
    rw [List.forall₂_nil_left_iff.1 hpacks] at hflatten
    exact hsrc hflatten.symm
  refine ⟨fun file h => ?_, fun hable => ?_⟩
  · rw [Codec.compressFileTune] at h
    obtain ⟨packed, hpacked, h⟩ := Option.bind_eq_some_iff.1 h
    dsimp only at h
    rw [if_neg (hne hpacked)] at h
    obtain ⟨descr, hdescr, h⟩ := Option.bind_eq_some_iff.1 h
    obtain ⟨footer, hfooter, h⟩ := Option.bind_eq_some_iff.1 h
    obtain rfl := Option.some.inj h
    have hpacks := packs_of_mapM hlib hpacked (chunkAlign_pos _ _) (chunkAlign_le _ _)
    have hlength : packed.length = (chunksOf (2 ^ logChunkSize) src).length := hpacks.length_eq
    rw [← hlength] at hcount
    have hnoted := noted_chunkTable packed (List.range packed.length)
      fun i hi => List.mem_range.2 hi
    have hbody : ((writeChunks packed (List.range packed.length)).area true ++
        (writeChunks packed (List.range packed.length)).area false).length < 2 ^ 63 := by
      have htrue := length_joined_lt hpacks hcount hlog true
      have hfalse := length_joined_lt hpacks hcount hlog false
      rw [List.length_append, area_writeChunks_range, area_writeChunks_range]
      omega
    rw [decodeFile_of_placed hpacks (hnoted.imp fun _ _ h => h.placed) hbody hcount hlog hdescr
      hfooter, hflatten]
  · obtain ⟨packed, hpacked⟩ := hable.exists_packed
    obtain ⟨descr, hdescr⟩ := hable.exists_descr packed.length
    obtain ⟨footer, hfooter⟩ := hable.exists_footer packed
      (chunkTable packed (writeChunks packed (List.range packed.length))) descr
    simp only [Codec.compressFileTune, hpacked, hdescr, hfooter, hne hpacked, if_false,
      Option.bind_eq_bind, Option.bind_some]
    rfl

/-- A small file, of which nothing is compressed. -/
theorem roundTrips_smallFile :
    RoundTrips repeatCodec (utf8 "Samsung") (none : Option Signer).isSome
      (Compressible repeatCodec .gzip 17 (chunkAlign .gzip true)
        ((utf8 "Samsung").length < 2 * 4096) none (utf8 "Samsung"))
      (repeatCodec.compressFileTune .gzip 17 none (utf8 "Samsung")) :=
  roundTrips_compressFileTune lawful_repeatCodec .gzip none (by decide) (by decide)
    (by rw [length_chunksOf]; decide +kernel)

/-! ### A compressed file of an image -/

/-- What the decoder makes of a file of an image. -/
def Codec.decodes (lib : Codec) (file : Bytes) : ℤ × Bytes :=
  ((lib.decodeFile file).map fun result => (result.1, result.2.1)).getD (-einval, [])

/-- **Compressed files of an image.** A file that the threads have compressed stands in the image
for what it was before. -/
theorem contents_eq_of_compressFile {img : Image} {lib : Codec} {r : Record} {type : ComprType}
    {logChunkSize : ℕ} {signer : Option Signer} {order : List ℕ} {src file : Bytes}
    (himg : img.decodeFile = lib.decodes) (hlib : lib.Lawful) (hlog : logChunkSize < 31)
    (hcount : (chunksOf (2 ^ logChunkSize) src).length < 2 ^ 16)
    (horder : order.Perm (List.range (chunksOf (2 ^ logChunkSize) src).length))
    (hfile : lib.compressFile type logChunkSize signer order src = some file)
    (htype : r.recordType = .file) (hregular : r.isSpecial = false)
    (hflag : r.hasFlag compressedFile = true) (hstored : img.stored r.objectId r = some file) :
    img.contents r = some (.file src) := by
  have hdecode : img.decodeFile file = (0, src) := by
    rw [himg, Codec.decodes, decodeFile_of_compressFile hlib horder hlog hcount hfile]
    rfl
  rw [Image.contents, htype]
  dsimp only
  rw [Image.fileEntry, hregular, if_neg Bool.false_ne_true, Image.bodyEntry, if_pos hflag, hstored,
    Option.bind_some, Image.decoded, hdecode, if_pos rfl, Option.map_some]

end SamsungTVVoices.Extractor
