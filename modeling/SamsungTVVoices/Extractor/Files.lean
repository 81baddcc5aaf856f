/-
The files that the unpacking tool creates (`create_file`, `create_decompress_file`,
`create_symlink` and `create_spec_file` of `unpack.c`).

`Outcomes` says how the operations go that are made for one record.  The tool tests most of them,
but a `write` that takes only a part of its bytes counts as a success, and so does a `read` of the
image that fails.  `Image.stored` is what the file holds by its extents; `createFile_stored` says
that a file all of whose blocks are `Unbroken` is created with just that when the code returned
is 0, and `createFile_done` that it is created where every block could be copied.
-/
import SamsungTVVoices.Extractor.Image
import Mathlib.Data.List.TakeWhile

namespace SamsungTVVoices.Extractor

/-! ### How the operations go -/

/-- How a `write` goes: `part n` takes at most `n` bytes. -/
inductive WriteOutcome
  | all
  | part (n : ℕ)
  | failed
deriving DecidableEq

/-- The bytes that are written. -/
def WriteOutcome.taken (w : WriteOutcome) (bytes : Bytes) : Option Bytes :=
  match w with
  | .all => some bytes
  | .part n => some (bytes.take n)
  | .failed => none

/-- How the operations go that are made for one record.  What is not made counts as done. -/
structure Outcomes where
  /-- The folders: reading on in the catalog, `mkdir`, reading on again. -/
  nextItem : Bool := true
  mkdir : Bool := true
  nextFolder : Bool := true
  /-- `create_file`: the reads and writes by the block of the file. -/
  creat : Bool := true
  lookup : ℕ → Bool := fun _ => true
  read : ℕ → ReadOutcome := fun _ => .whole
  write : ℕ → WriteOutcome := fun _ => .all
  /-- What is in a buffer before anything is read into it. -/
  garbage : ℕ → UInt8 := fun _ => 0
  /-- `create_decompress_file`: an error of the decompressor comes with what it has written. -/
  openTmp : Bool := true
  openDst : Bool := true
  decode : Option (ℤ × Bytes) := none
  /-- `create_symlink` and `create_spec_file`. -/
  symlink : Bool := true
  mknod : Bool := true
  /-- The data inode of a `DLINK` and its temporary file.  `stale` is what is read from a descriptor
  that has been closed or never set. -/
  child : Bool := true
  openTemp : Bool := true
  readTemp : Bool := true
  stale : Option Bytes := none
  openOut : Bool := true
  writeOut : WriteOutcome := .all
  /-- `create_hlink` and `link`. -/
  find : Bool := true
  link : Bool := true
  /-- The codes of `set_attributes` and `unpack_xattr`. -/
  attributes : ℤ := 0
  xattr : ℤ := 0
  /-- Reading on in the catalog. -/
  next : Bool := true
  /-- `errno` after an `open` that fails. -/
  errno : {n : ℕ // 0 < n} := ⟨5, by decide⟩

/-- What the tool creates: a regular file, a symbolic link or a device. -/
inductive Entry
  | file (bytes : Bytes)
  | link (target : Bytes)
  | special (major minor : ℕ)
deriving DecidableEq

/-- A C string ends before its first zero byte. -/
def cString (b : Bytes) : Bytes := b.takeWhile (· ≠ 0)

lemma cString_of_noZero {b : Bytes} (h : 0 ∉ b) : cString b = b := by
  refine List.takeWhile_eq_self_iff.2 fun x hx => ?_
  exact decide_eq_true (fun hzero => h (hzero ▸ hx))

lemma zero_notMem_cString (b : Bytes) : 0 ∉ cString b := by
  intro hzero
  simpa using List.mem_takeWhile_imp hzero

/-- No device, and no zero byte in a target: what can be created from the body of a link. -/
def Entry.Clean : Entry → Prop
  | .file _ => True
  | .link target => 0 ∉ target
  | .special _ _ => False

variable (img : Image) (o : Outcomes) (obj : ℕ) (r : Record)

/-! ### Copying the blocks -/

/-- The loop of `create_file`.  Every turn takes at least one byte off the size, which is why it
ends. -/
def createFileLoop : ℕ → ℕ → ℕ → Bytes → Bytes → Option (ℤ × Bytes)
  | 0, _, _, _, written => some (0, written)
  | fuel + 1, iblock, size, buf, written =>
    if size = 0 then some (0, written)
    else
      let offset := img.getFileBlockNum (o.lookup iblock) obj r iblock
      if offset < 0 then some (offset.bmod (2 ^ 32), written)
      else (img.readBlocks offset.toNat buf 1 (o.read iblock)).bind fun (ret, buf) =>
        if ret < 0 then some (ret, written)
        else
          let writeSize := min img.blockSize size
          match (o.write iblock).taken (buf.take writeSize) with
          | none => some (-ewrfail, written)
          | some bytes =>
            createFileLoop fuel (iblock + 1) (size - writeSize) buf (written ++ bytes)

/-- `create_file`: the code and what is in the file, if there is one. -/
def createFile : Option (ℤ × Option Bytes) :=
  if o.creat then
    (createFileLoop img o obj r r.sizeInBytes 0 r.sizeInBytes
      ((List.range img.blockSize).map o.garbage) []).map fun (ret, bytes) => (ret, some bytes)
  else some (-enfile, none)

/-! ### What is stored -/

namespace Image

variable (i : ℕ)

/-- The number of blocks that `size` bytes take. -/
def blocksOf (size : ℕ) : ℕ := (size + img.blockSize - 1) / img.blockSize

/-- The number of bytes of the file in its block `i`. -/
def chunkSize : ℕ := min img.blockSize (r.sizeInBytes - i * img.blockSize)

/-- The bytes of the file in its block `i`. -/
def fileChunk : Option Bytes :=
  (img.mappedBlock obj r i).bind fun b =>
    if b * img.blockSize + img.chunkSize r i ≤ img.data.length then
      some ((img.data.drop (b * img.blockSize)).take (img.chunkSize r i))
    else none

/-- The bytes of the blocks `i`, …, `i + n - 1` of the file. -/
def storedFrom (n : ℕ) : Option Bytes :=
  ((List.range' i n).mapM (img.fileChunk obj r)).map List.flatten

/-- What the file holds by its extents: as many bytes as its size says. -/
def stored : Option Bytes := img.storedFrom obj r 0 (img.blocksOf r.sizeInBytes)

end Image

/-- The copy of block `i` does not fail in a way that the tool takes for a success: the block is
found and lies in the image, the read does not fail, and the write is not a short one. -/
structure Unbroken (i : ℕ) : Prop where
  found : img.Found obj r i
  held : ∀ b, img.mappedBlock obj r i = some b →
    b * img.blockSize + img.chunkSize r i ≤ img.data.length
  read : o.read i ≠ .failed
  write : ∀ n, o.write i = .part n → img.chunkSize r i ≤ n

variable {img o obj r} {i n fuel size ret : ℕ} {buf written out : Bytes}

namespace Image

@[simp] lemma blocksOf_zero : img.blocksOf 0 = 0 := by
  have := img.blockSize_pos
  exact Nat.div_eq_of_lt (by omega)

lemma blocksOf_pos (hsize : 0 < size) :
    img.blocksOf size = img.blocksOf (size - min img.blockSize size) + 1 := by
  have hpos := img.blockSize_pos
  rcases Nat.le_total size img.blockSize with hle | hle
  · -- the last block
    rw [min_eq_right hle, Nat.sub_self, blocksOf_zero, zero_add]
    exact Nat.div_eq_of_lt_le (by omega) (by omega)
  · rw [min_eq_left hle]
    unfold blocksOf
    rw [← Nat.add_div_right _ hpos]
    congr 1
    omega

@[simp] lemma storedFrom_zero : img.storedFrom obj r i 0 = some [] := rfl

lemma storedFrom_succ : img.storedFrom obj r i (n + 1) =
    (img.fileChunk obj r i).bind fun c => (img.storedFrom obj r (i + 1) n).map (c ++ ·) := by
  unfold storedFrom
  rw [List.range'_succ, List.mapM_cons]
  cases img.fileChunk obj r i with
  | none => rfl
  | some c => cases (List.range' (i + 1) n).mapM (img.fileChunk obj r) <;> rfl

/-- Blocks that are read whole are in the buffer up to the end of the image. -/
lemma readBlocks_whole {b k count : ℕ} {code : ℤ} {buf' : Bytes} (hk : k ≤ count * img.blockSize)
    (hpos : 0 < k) (hheld : b * img.blockSize + k ≤ img.data.length)
    (h : img.readBlocks b buf count .whole = some (code, buf')) :
    code = 0 ∧ buf'.take k = (img.data.drop (b * img.blockSize)).take k := by
  have hlt : b * img.blockSize < 2 ^ 64 := by
    have := img.length_data_lt
    omega
  have hcount : count ≠ 0 := by
    rintro rfl
    omega
  simp only [readBlocks, Nat.mod_eq_of_lt hlt, if_neg hcount] at h
  split at h
  · cases h
  · obtain ⟨rfl, rfl⟩ := Prod.mk.inj (Option.some.inj h)
    refine ⟨rfl, ?_⟩
    rw [List.take_append_of_le_length, List.take_take, min_eq_left hk]
    rw [List.length_take, List.length_drop]
    omega

/-- A read that does not fail and is not found to be short is a whole one. -/
lemma readBlocks_nonneg {b count : ℕ} {code : ℤ} {buf' : Bytes} {how : ReadOutcome}
    (hcount : count ≠ 0) (h : img.readBlocks b buf count how = some (code, buf'))
    (hcode : ¬ code < 0) (hhow : how ≠ .failed) : how = .whole := by
  simp only [readBlocks, if_neg hcount] at h
  split at h
  · cases h
  · cases how with
    | whole => rfl
    | failed => exact absurd rfl hhow
    | short =>
      obtain ⟨rfl, -⟩ := Prod.mk.inj (Option.some.inj h)
      exact absurd (by decide) hcode
    | seekFailed =>
      obtain ⟨rfl, -⟩ := Prod.mk.inj (Option.some.inj h)
      exact absurd (by decide) hcode

end Image

/-- A write that is not short takes everything. -/
lemma WriteOutcome.taken_of_le {w : WriteOutcome} {bytes bytes' : Bytes}
    (hw : ∀ n, w = .part n → bytes.length ≤ n) (h : w.taken bytes = some bytes') :
    bytes' = bytes := by
  cases w with
  | all => exact (Option.some.inj h).symm
  | part n => rw [← Option.some.inj h, List.take_of_length_le (hw n rfl)]
  | failed => cases h

lemma WriteOutcome.taken_ne_none {w : WriteOutcome} (hw : w ≠ .failed) (bytes : Bytes) :
    w.taken bytes ≠ none := by
  cases w with
  | failed => exact absurd rfl hw
  | _ => exact Option.some_ne_none _

/-- No block of the file is left when its size is used up. -/
lemma nothing_left {p : ℕ → Prop} (hsize : 0 = r.sizeInBytes - i * img.blockSize) :
    ∀ j, i ≤ j → j * img.blockSize < r.sizeInBytes → p j := by
  intro j hj hlt
  have := Nat.mul_le_mul_right img.blockSize hj
  omega

/-- Block `i` of the file could be copied: it was looked up where the extents map it, read, and
written in full. -/
structure Copied (img : Image) (o : Outcomes) (obj : ℕ) (r : Record) (i : ℕ) : Prop where
  mapped : ∃ b, img.mappedBlock obj r i = some b ∧ img.getFileBlockNum (o.lookup i) obj r i = b
  read : o.read i = .whole
  write : o.write i ≠ .failed ∧ ∀ n, o.write i = .part n → img.chunkSize r i ≤ n

/-- One turn of the loop, from which it does not return an error: the block has been copied, and its
bytes are those of the file. -/
lemma createFileLoop_turn (hun : Unbroken img o obj r i) (hzero : size ≠ 0)
    (hsize : size = r.sizeInBytes - i * img.blockSize)
    (h : createFileLoop img o obj r (fuel + 1) i size buf written = some (0, out)) :
    Copied img o obj r i ∧ ∃ bytes buf', img.fileChunk obj r i = some bytes ∧
      createFileLoop img o obj r fuel (i + 1) (size - img.chunkSize r i) buf' (written ++ bytes) =
        some (0, out) := by
  obtain ⟨hfound, hheld, hread, hwrite⟩ := hun
  rw [createFileLoop, if_neg hzero] at h
  -- an error of the lookup is returned
  rcases Image.eq_mappedBlock_of_found (o.lookup i) hfound with ⟨b, hb, hnum⟩ | hnum | hnum
  · simp only [hnum, Int.not_lt.2 (Int.natCast_nonneg b), if_false, Int.toNat_natCast] at h
    obtain ⟨⟨code, buf'⟩, hblock, h⟩ := Option.bind_eq_some_iff.1 h
    simp only at h
    by_cases hcode : code < 0
    · rw [if_pos hcode] at h
      obtain ⟨rfl, -⟩ := Prod.mk.inj (Option.some.inj h)
      exact absurd hcode (by decide)
    rw [if_neg hcode] at h
    have hwhole := Image.readBlocks_nonneg one_ne_zero hblock hcode hread
    rw [hwhole] at hblock
    have hk : min img.blockSize size = img.chunkSize r i := by rw [hsize]; rfl
    have hle : img.chunkSize r i ≤ img.blockSize := min_le_left _ _
    have hkpos : 0 < img.chunkSize r i := lt_min img.blockSize_pos (by omega)
    obtain ⟨rfl, hbuf⟩ := Image.readBlocks_whole (by omega) hkpos (hheld b hb) hblock
    simp only [hk, hbuf] at h
    cases htaken : (o.write i).taken
        ((img.data.drop (b * img.blockSize)).take (img.chunkSize r i)) with
    | none =>
      simp only [htaken] at h
      obtain ⟨hcode, -⟩ := Prod.mk.inj (Option.some.inj h)
      exact absurd hcode (by decide)
    | some bytes =>
      simp only [htaken] at h
      have hlength : ((img.data.drop (b * img.blockSize)).take (img.chunkSize r i)).length ≤
          img.chunkSize r i := List.length_take_le _ _
      have hbytes := WriteOutcome.taken_of_le (fun n hn => hlength.trans (hwrite n hn)) htaken
      refine ⟨⟨⟨b, hb, hnum⟩, hwhole, fun hfailed => ?_, hwrite⟩, bytes, buf', ?_, h⟩
      · rw [hfailed] at htaken
        cases htaken
      · rw [Image.fileChunk, hb, Option.bind_some, if_pos (hheld b hb), hbytes]
  · simp only [hnum] at h
    obtain ⟨hcode, -⟩ := Prod.mk.inj (Option.some.inj h)
    exact absurd hcode (by decide)
  · simp only [hnum] at h
    obtain ⟨hcode, -⟩ := Prod.mk.inj (Option.some.inj h)
    exact absurd hcode (by decide)

/-- The loop copies what is stored, if no block is broken and the code is 0. -/
lemma createFileLoop_stored (hun : ∀ j, i ≤ j → j * img.blockSize < r.sizeInBytes →
      Unbroken img o obj r j) (hsize : size = r.sizeInBytes - i * img.blockSize)
    (hfuel : size ≤ fuel)
    (h : createFileLoop img o obj r fuel i size buf written = some (0, out)) :
    (∃ bytes, img.storedFrom obj r i (img.blocksOf size) = some bytes ∧ out = written ++ bytes) ∧
      ∀ j, i ≤ j → j * img.blockSize < r.sizeInBytes → Copied img o obj r j := by
  induction fuel generalizing i size buf written with
  | zero =>
    obtain rfl : size = 0 := by omega
    obtain ⟨-, rfl⟩ := Prod.mk.inj (Option.some.inj h)
    exact ⟨⟨[], by simp, (List.append_nil _).symm⟩, nothing_left hsize⟩
  | succ fuel ih =>
    by_cases hzero : size = 0
    · rw [createFileLoop, if_pos hzero] at h
      obtain ⟨-, rfl⟩ := Prod.mk.inj (Option.some.inj h)
      exact ⟨⟨[], by simp [hzero], (List.append_nil _).symm⟩, nothing_left (hzero ▸ hsize)⟩
    obtain ⟨hcopied, bytes, buf', hchunk, h⟩ :=
      createFileLoop_turn (hun i le_rfl (by omega)) hzero hsize h
    have hk : min img.blockSize size = img.chunkSize r i := by rw [hsize]; rfl
    have hkpos : 0 < img.chunkSize r i := lt_min img.blockSize_pos (by omega)
    have hnext : size - img.chunkSize r i = r.sizeInBytes - (i + 1) * img.blockSize := by
      rw [← hk, Nat.succ_mul]
      omega
    obtain ⟨⟨rest, hrest, rfl⟩, hcopied'⟩ :=
      ih (fun j hj => hun j (by omega)) hnext (by omega) h
    refine ⟨⟨bytes ++ rest, ?_, by rw [List.append_assoc]⟩, fun j hj hjlt => ?_⟩
    · rw [Image.blocksOf_pos (Nat.pos_of_ne_zero hzero), hk, Image.storedFrom_succ, hchunk,
        Option.bind_some, hrest, Option.map_some]
    · rcases Nat.eq_or_lt_of_le hj with rfl | hj
      · exact hcopied
      · exact hcopied' j hj hjlt

variable (img o obj r)

/-- `create_decompress_file`: the code, what is in the file, if there is one, and whether the
decompressor says that it is authenticated. -/
def createDecompressFile : Option (ℤ × Option Bytes × Bool) :=
  (createFile img o obj r).map fun (ret, tmp) =>
    if ret ≠ 0 then (ret, none, false)
    else if !o.openTmp || !o.openDst then (o.errno.1, none, false)
    else
      let (code, bytes) := o.decode.getD (img.decodeFile (tmp.getD []))
      (code, some bytes, img.authenticated (tmp.getD []))

/-- `create_symlink`: the blocks of the first extent are read at once.  `none` is also a zero byte
that is set outside the buffer. -/
def createSymlink : Option (ℤ × Option Bytes) :=
  let iextent := r.extents.headD ⟨0, 0, 0⟩
  let size := iextent.length * img.blockSize
  (img.readBlocks iextent.begin ((List.range size).map o.garbage) iextent.length (o.read 0)).bind
    fun (ret, buf) =>
      if ret < 0 then some (ret, none)
      else if size ≤ r.sizeInBytes then none
      else if o.symlink then some (0, some (cString (buf.take r.sizeInBytes)))
      else some (-einval, none)

/-- `create_spec_file`, with the device number of the record. -/
def createSpecFile : ℤ × Option Entry :=
  if o.mknod then (0, some (.special (r.totalItemsCount >>> 20) (r.totalItemsCount &&& 0xfffff)))
  else (-1, none)

/-- The branches that `unpack_files` and `create_hlink` have in common. -/
def createContents : Option (ℤ × Option Entry) :=
  if r.hasFlag compressedFile then
    (createDecompressFile img o obj r).map fun (ret, bytes, _) => (ret, bytes.map .file)
  else if r.isLink then (createSymlink img o r).map fun (ret, target) => (ret, target.map .link)
  else (createFile img o obj r).map fun (ret, bytes) => (ret, bytes.map .file)

/-- The branch of `unpack_files` for a `FILE` record. -/
def unpackFile : Option (ℤ × Option Entry) :=
  if r.isSpecial then some (createSpecFile o r) else createContents img o obj r

/-! ### What they are to create -/

/-- What the decompressor makes of the bytes. -/
def Image.decoded (bytes : Bytes) : Option Bytes :=
  if (img.decodeFile bytes).1 = 0 then some (img.decodeFile bytes).2 else none

/-- The contents of a file or a symbolic link. -/
def Image.bodyEntry : Option Entry :=
  if r.hasFlag compressedFile then ((img.stored obj r).bind img.decoded).map .file
  else if r.isLink then (img.stored obj r).map .link
  else (img.stored obj r).map .file

/-- The contents of a `FILE` record. -/
def Image.fileEntry : Option Entry :=
  if r.isSpecial then
    some (.special (r.totalItemsCount >>> 20) (r.totalItemsCount &&& 0xfffff))
  else img.bodyEntry obj r

/-- The blocks of the target lie in the first extent, one after the other. -/
def TargetMapped : Prop :=
  ∀ i, i * img.blockSize < r.sizeInBytes →
    img.mappedBlock obj r i = some ((r.extents.headD ⟨0, 0, 0⟩).begin + i)

/-- A symbolic link is created with its target: the read does not fail, the target lies in the
first extent, and there is no zero byte in it. -/
structure TargetSound : Prop where
  read : o.read 0 ≠ .failed
  mapped : TargetMapped img obj r
  held : 0 < r.sizeInBytes →
    (r.extents.headD ⟨0, 0, 0⟩).begin * img.blockSize + r.sizeInBytes ≤ img.data.length
  noZero : ∀ target, img.stored obj r = some target → 0 ∉ target

/-- No block of the file is broken. -/
def BlocksSound : Prop := ∀ i, i * img.blockSize < r.sizeInBytes → Unbroken img o obj r i

/-- Nothing fails in a way that the tool takes for a success: the decompressor does not return 0
for less than all the bytes either. -/
def BodySound : Prop :=
  if r.hasFlag compressedFile then
    BlocksSound img o obj r ∧ ∀ bytes, o.decode ≠ some (0, bytes)
  else if r.isLink then TargetSound img o obj r
  else BlocksSound img o obj r

/-- The file could be created, its blocks mapped, read and written. -/
def BlocksDone : Prop :=
  o.creat = true ∧ ∀ i, i * img.blockSize < r.sizeInBytes → Copied img o obj r i

/-- The contents could be read, mapped, decoded and written. -/
def BodyDone : Prop :=
  if r.hasFlag compressedFile then
    BlocksDone img o obj r ∧ o.openTmp = true ∧ o.openDst = true ∧ o.decode = none
  else if r.isLink then o.read 0 = .whole ∧ o.symlink = true ∧ TargetMapped img obj r
  else BlocksDone img o obj r

variable {img o obj r} {code : ℤ} {e : Option Bytes} {entry : Option Entry}

/-- **A created file is whole.** -/
lemma createFile_stored (hsound : BlocksSound img o obj r)
    (h : createFile img o obj r = some (0, e)) :
    (∃ bytes, img.stored obj r = some bytes ∧ e = some bytes) ∧ BlocksDone img o obj r := by
  rw [createFile] at h
  cases hcreat : o.creat with
  | false =>
    rw [if_neg (by simp [hcreat])] at h
    cases h
  | true =>
    rw [if_pos hcreat] at h
    obtain ⟨⟨code, out⟩, hloop, h⟩ := Option.map_eq_some_iff.1 h
    obtain ⟨rfl, rfl⟩ := Prod.mk.inj h
    obtain ⟨⟨bytes, hbytes, hout⟩, hcopied⟩ := createFileLoop_stored
      (fun j _ hlt => hsound j hlt) (by simp) le_rfl hloop
    exact ⟨⟨bytes, hbytes, congrArg some hout⟩, hcreat, fun i hlt => hcopied i (Nat.zero_le i) hlt⟩

lemma createFile_isSome (h : createFile img o obj r = some (0, e)) :
    e.isSome ∧ o.creat = true := by
  rw [createFile] at h
  split at h
  · next hcreat =>
    obtain ⟨⟨code, out⟩, -, h⟩ := Option.map_eq_some_iff.1 h
    obtain ⟨-, rfl⟩ := Prod.mk.inj h
    exact ⟨rfl, hcreat⟩
  · cases h

/-- A file is decompressed if nothing before that fails. -/
lemma createDecompressFile_cases {auth : Bool}
    (h : createDecompressFile img o obj r = some (0, e, auth)) :
    ∃ tmp bytes, createFile img o obj r = some (0, tmp) ∧ o.openTmp = true ∧ o.openDst = true ∧
      o.decode.getD (img.decodeFile (tmp.getD [])) = (0, bytes) ∧ e = some bytes ∧
      auth = img.authenticated (tmp.getD []) := by
  obtain ⟨⟨code, tmp⟩, hcreate, h⟩ := Option.map_eq_some_iff.1 h
  simp only at h
  by_cases hcode : code = 0
  · subst hcode
    cases htmp : o.openTmp with
    | false =>
      simp only [htmp] at h
      exact absurd (Int.natCast_eq_zero.1 (Prod.mk.inj h).1) o.errno.2.ne'
    | true =>
      cases hdst : o.openDst with
      | false =>
        simp only [htmp, hdst] at h
        exact absurd (Int.natCast_eq_zero.1 (Prod.mk.inj h).1) o.errno.2.ne'
      | true =>
        simp only [htmp, hdst] at h
        obtain ⟨hfirst, hrest⟩ := Prod.mk.inj h
        obtain ⟨rfl, rfl⟩ := Prod.mk.inj hrest
        exact ⟨tmp, _, hcreate, rfl, rfl, Prod.ext hfirst rfl, rfl, rfl⟩
  · rw [if_pos hcode] at h
    exact absurd (Prod.mk.inj h).1 hcode

namespace Image

lemma lt_blocksOf {j : ℕ} : j < img.blocksOf size ↔ j * img.blockSize < size := by
  have := img.blockSize_pos
  rw [blocksOf, ← Nat.succ_le_iff, Nat.le_div_iff_mul_le this, Nat.succ_mul]
  omega

/-- All the chunks of what is stored are. -/
lemma fileChunk_of_storedFrom {bytes : Bytes} {j : ℕ}
    (h : img.storedFrom obj r i n = some bytes) (hj : i ≤ j) (hlt : j < i + n) :
    ∃ chunk, img.fileChunk obj r j = some chunk := by
  induction n generalizing i bytes with
  | zero => omega
  | succ n ih =>
    rw [storedFrom_succ] at h
    obtain ⟨chunk, hchunk, h⟩ := Option.bind_eq_some_iff.1 h
    obtain ⟨rest, hrest, -⟩ := Option.map_eq_some_iff.1 h
    rcases Nat.eq_or_lt_of_le hj with rfl | hj
    · exact ⟨chunk, hchunk⟩
    · exact ih hrest hj (by omega)

end Image

/-- What could be copied from where it is stored is not broken. -/
lemma unbroken_of_copied {j : ℕ} (h : Copied img o obj r j) {chunk : Bytes}
    (hchunk : img.fileChunk obj r j = some chunk) : Unbroken img o obj r j := by
  obtain ⟨⟨b, hb, hnum⟩, hread, hwrite⟩ := h
  refine ⟨Image.found_of_eq_mappedBlock hb hnum, ?_, by rw [hread]; decide, hwrite.2⟩
  intro b' hb'
  rw [Image.fileChunk, hb', Option.bind_some] at hchunk
  by_contra hheld
  rw [if_neg hheld] at hchunk
  cases hchunk

/-- **The blocks of a file are sound just if they could be copied**, when what is stored can be
told. -/
lemma blocksSound_of_done {bytes : Bytes} (hstored : img.stored obj r = some bytes)
    (h : BlocksDone img o obj r) : BlocksSound img o obj r := by
  intro j hlt
  obtain ⟨chunk, hchunk⟩ := Image.fileChunk_of_storedFrom hstored (Nat.zero_le j)
    (by rw [Nat.zero_add]; exact Image.lt_blocksOf.2 hlt)
  exact unbroken_of_copied (h.2 j hlt) hchunk

/-- A block that is copied does not stop the loop. -/
lemma createFileLoop_succ (hzero : size ≠ 0) (hcopied : Copied img o obj r i)
    (hun : Unbroken img o obj r i) (hsize : size = r.sizeInBytes - i * img.blockSize) {out : Bytes}
    (h : createFileLoop img o obj r (fuel + 1) i size buf written = some (code, out)) :
    ∃ buf' written', createFileLoop img o obj r fuel (i + 1) (size - min img.blockSize size) buf'
      written' = some (code, out) := by
  obtain ⟨⟨b, hb, hnum⟩, hread, hwrite⟩ := hcopied
  rw [createFileLoop, if_neg hzero] at h
  simp only [hnum, Int.not_lt.2 (Int.natCast_nonneg b), if_false, Int.toNat_natCast] at h
  obtain ⟨⟨code', buf'⟩, hblock, h⟩ := Option.bind_eq_some_iff.1 h
  have hk : min img.blockSize size = img.chunkSize r i := by rw [hsize]; rfl
  have hle : img.chunkSize r i ≤ img.blockSize := min_le_left _ _
  have hkpos : 0 < img.chunkSize r i := lt_min img.blockSize_pos (by omega)
  rw [hread] at hblock
  obtain ⟨rfl, -⟩ := Image.readBlocks_whole (by omega) hkpos (hun.held b hb) hblock
  simp only [lt_irrefl, if_false] at h
  cases htaken : (o.write i).taken (buf'.take (min img.blockSize size)) with
  | none => exact absurd htaken (WriteOutcome.taken_ne_none hwrite.1 _)
  | some bytes =>
    rw [htaken] at h
    exact ⟨buf', _, h⟩

/-- **A file that could be copied is created without an error.** -/
lemma createFile_done {bytes : Bytes} (hstored : img.stored obj r = some bytes)
    (hdone : BlocksDone img o obj r) (h : createFile img o obj r = some (code, e)) :
    code = 0 ∧ e = some bytes := by
  have hloop : ∀ {fuel i size buf written out}, size = r.sizeInBytes - i * img.blockSize →
      createFileLoop img o obj r fuel i size buf written = some (code, out) → code = 0 := by
    intro fuel
    induction fuel with
    | zero =>
      intro i size buf written out _ h
      exact (Prod.mk.inj (Option.some.inj h)).1.symm
    | succ fuel ih =>
      intro i size buf written out hsize h
      by_cases hzero : size = 0
      · rw [createFileLoop, if_pos hzero] at h
        exact (Prod.mk.inj (Option.some.inj h)).1.symm
      have hlt : i * img.blockSize < r.sizeInBytes := by omega
      obtain ⟨buf', written', h⟩ := createFileLoop_succ hzero (hdone.2 i hlt)
        (blocksSound_of_done hstored hdone i hlt) hsize h
      refine ih (i := i + 1) ?_ h
      rw [Nat.succ_mul]
      omega
  have hcode : code = 0 := by
    have hunfold := h
    rw [createFile, if_pos hdone.1] at hunfold
    obtain ⟨⟨c, out⟩, hout, heq⟩ := Option.map_eq_some_iff.1 hunfold
    obtain ⟨rfl, -⟩ := Prod.mk.inj heq
    exact hloop (by simp) hout
  subst hcode
  obtain ⟨⟨bytes', hbytes', rfl⟩, -⟩ :=
    createFile_stored (blocksSound_of_done hstored hdone) h
  rw [hstored] at hbytes'
  exact ⟨rfl, hbytes'.symm⟩

/-- **A file that could be copied is decompressed without an error**, if it can be. -/
lemma createDecompressFile_done {bytes decoded : Bytes} {auth : Bool}
    (hstored : img.stored obj r = some bytes) (hdecoded : img.decoded bytes = some decoded)
    (hdone : BlocksDone img o obj r)
    (hopen : o.openTmp = true ∧ o.openDst = true ∧ o.decode = none)
    (h : createDecompressFile img o obj r = some (code, e, auth)) :
    code = 0 ∧ e = some decoded := by
  obtain ⟨⟨code', tmp⟩, hcreate, h⟩ := Option.map_eq_some_iff.1 h
  obtain ⟨rfl, rfl⟩ := createFile_done hstored hdone hcreate
  rw [Image.decoded] at hdecoded
  split at hdecoded
  · next hcode =>
    simp only [hopen.1, hopen.2.1, hopen.2.2] at h
    obtain ⟨hcode', h⟩ := Prod.mk.inj h
    obtain ⟨he, -⟩ := Prod.mk.inj h
    exact ⟨hcode'.symm.trans hcode, he.symm.trans hdecoded⟩
  · cases hdecoded

namespace Image

/-- Blocks that lie next to each other in the image are one run of bytes. -/
lemma storedFrom_contiguous {first : ℕ} (hfuel : size ≤ fuel)
    (hmapped : ∀ j, i ≤ j → j * img.blockSize < r.sizeInBytes →
      img.mappedBlock obj r j = some (first + j))
    (hsize : size = r.sizeInBytes - i * img.blockSize)
    (hheld : 0 < size → (first + i) * img.blockSize + size ≤ img.data.length) :
    img.storedFrom obj r i (img.blocksOf size) =
      some ((img.data.drop ((first + i) * img.blockSize)).take size) := by
  induction fuel generalizing i size with
  | zero =>
    obtain rfl : size = 0 := by omega
    simp
  | succ fuel ih =>
    rcases Nat.eq_zero_or_pos size with rfl | hpos
    · simp
    have hheld := hheld hpos
    have hk : min img.blockSize size = img.chunkSize r i := by rw [hsize]; rfl
    have hkle : min img.blockSize size ≤ size := min_le_right _ _
    have hkpos : 0 < min img.blockSize size := lt_min img.blockSize_pos hpos
    have hchunk : img.fileChunk obj r i = some
        ((img.data.drop ((first + i) * img.blockSize)).take (min img.blockSize size)) := by
      rw [fileChunk, hmapped i le_rfl (by omega), Option.bind_some, ← hk, if_pos (by omega)]
    have hnext : size - min img.blockSize size = r.sizeInBytes - (i + 1) * img.blockSize := by
      rw [Nat.succ_mul]
      omega
    rw [blocksOf_pos hpos, storedFrom_succ, hchunk, Option.bind_some]
    rcases Nat.le_total size img.blockSize with hle | hle
    · -- the last block
      simp [min_eq_right hle]
    · rw [min_eq_left hle] at hnext ⊢
      have hrow : (first + (i + 1)) * img.blockSize =
          (first + i) * img.blockSize + img.blockSize := by ring
      rw [ih (by have := img.blockSize_pos; omega) (fun j hj => hmapped j (by omega)) hnext
        (fun _ => by omega), Option.map_some, hrow, ← List.drop_drop, ← List.take_add,
        Nat.add_sub_cancel' hle]

end Image

lemma createSymlink_isSome (h : createSymlink img o r = some (0, e)) :
    e.isSome ∧ o.symlink = true := by
  obtain ⟨⟨code, buf⟩, -, h⟩ := Option.bind_eq_some_iff.1 h
  simp only at h
  split at h
  · next hcode =>
    obtain ⟨rfl, -⟩ := Prod.mk.inj (Option.some.inj h)
    exact absurd hcode (by decide)
  · split at h
    · cases h
    · split at h
      · next hsymlink =>
        obtain ⟨-, rfl⟩ := Prod.mk.inj (Option.some.inj h)
        exact ⟨rfl, hsymlink⟩
      · obtain ⟨hcode, -⟩ := Prod.mk.inj (Option.some.inj h)
        exact absurd hcode (by decide)

/-- **A created link is whole.** -/
lemma createSymlink_stored (hsound : TargetSound img o obj r)
    (h : createSymlink img o r = some (0, e)) :
    (∃ target, img.stored obj r = some target ∧ e = some target) ∧ o.read 0 = .whole ∧
      o.symlink = true ∧ TargetMapped img obj r := by
  obtain ⟨hread, hmapped, hheld, hzero⟩ := hsound
  obtain ⟨⟨code, buf⟩, hblocks, h⟩ := Option.bind_eq_some_iff.1 h
  simp only at h
  by_cases hcode : code < 0
  · rw [if_pos hcode] at h
    obtain ⟨rfl, -⟩ := Prod.mk.inj (Option.some.inj h)
    exact absurd hcode (by decide)
  rw [if_neg hcode] at h
  by_cases hlen : (r.extents.headD ⟨0, 0, 0⟩).length * img.blockSize ≤ r.sizeInBytes
  · rw [if_pos hlen] at h
    cases h
  rw [if_neg hlen] at h
  have hcount : (r.extents.headD ⟨0, 0, 0⟩).length ≠ 0 := by
    intro hnone
    rw [hnone, Nat.zero_mul] at hlen
    exact hlen (Nat.zero_le _)
  have hwhole := Image.readBlocks_nonneg hcount hblocks hcode hread
  have hstored : img.stored obj r = some ((img.data.drop
      ((r.extents.headD ⟨0, 0, 0⟩).begin * img.blockSize)).take r.sizeInBytes) :=
    Image.storedFrom_contiguous le_rfl (fun j _ hlt => hmapped j hlt) (by simp) hheld
  have hbuf : buf.take r.sizeInBytes = (img.data.drop
      ((r.extents.headD ⟨0, 0, 0⟩).begin * img.blockSize)).take r.sizeInBytes := by
    rcases Nat.eq_zero_or_pos r.sizeInBytes with hnone | hpos
    · rw [hnone, List.take_zero, List.take_zero]
    · rw [hwhole] at hblocks
      exact (Image.readBlocks_whole (by omega) hpos (hheld hpos) hblocks).2
  by_cases hsymlink : o.symlink = true
  · rw [if_pos hsymlink] at h
    obtain ⟨-, rfl⟩ := Prod.mk.inj (Option.some.inj h)
    refine ⟨⟨_, hstored, ?_⟩, hwhole, hsymlink, hmapped⟩
    rw [hbuf, cString_of_noZero (hzero _ hstored)]
  · rw [if_neg hsymlink] at h
    exact absurd (Prod.mk.inj (Option.some.inj h)).1 (by decide)

lemma createSymlink_noZero {target : Bytes} (h : createSymlink img o r = some (code, some target)) :
    0 ∉ target := by
  obtain ⟨⟨code', buf⟩, -, h⟩ := Option.bind_eq_some_iff.1 h
  simp only at h
  split_ifs at h
  all_goals obtain ⟨-, heq⟩ := Prod.mk.inj (Option.some.inj h)
  · cases heq
  · rw [← Option.some.inj heq]
    exact zero_notMem_cString _
  · cases heq

lemma createSymlink_done (hread' : o.read 0 = .whole) (hsymlink : o.symlink = true)
    (h : createSymlink img o r = some (code, e)) : code = 0 := by
  obtain ⟨⟨code', buf⟩, hread, h⟩ := Option.bind_eq_some_iff.1 h
  have hcode : code' = 0 := by
    simp only [Image.readBlocks, hread'] at hread
    split_ifs at hread with hcount hout
    · exact (Prod.mk.inj (Option.some.inj hread)).1.symm
    · exact (Prod.mk.inj (Option.some.inj hread)).1.symm
  subst hcode
  simp only [lt_irrefl, if_false, hsymlink, if_true] at h
  split_ifs at h
  exact (Prod.mk.inj (Option.some.inj h)).1.symm

/-- **The contents are whole.** -/
theorem createContents_sound (hsound : BodySound img o obj r)
    (h : createContents img o obj r = some (0, entry)) :
    (∃ x, img.bodyEntry obj r = some x ∧ entry = some x) ∧ BodyDone img o obj r := by
  rw [createContents] at h
  rw [BodySound] at hsound
  rw [BodyDone, Image.bodyEntry]
  cases hcompressed : r.hasFlag compressedFile with
  | true =>
    simp only [hcompressed, if_true] at h hsound ⊢
    obtain ⟨⟨code, bytes, auth⟩, hcreate, h⟩ := Option.map_eq_some_iff.1 h
    obtain ⟨rfl, rfl⟩ := Prod.mk.inj h
    obtain ⟨tmp, bytes', htmp, hopenTmp, hopenDst, hdecode, rfl, -⟩ :=
      createDecompressFile_cases hcreate
    obtain ⟨⟨stored, hstored, rfl⟩, hdone⟩ := createFile_stored hsound.1 htmp
    cases hfault : o.decode with
    | some result =>
      rw [hfault] at hdecode
      exact absurd (hfault.trans (congrArg some hdecode)) (hsound.2 bytes')
    | none =>
      rw [hfault] at hdecode
      have hdecoded : img.decoded stored = some bytes' := by
        have hresult : img.decodeFile stored = (0, bytes') := hdecode
        rw [Image.decoded, hresult, if_pos rfl]
      refine ⟨⟨.file bytes', ?_, rfl⟩, hdone, hopenTmp, hopenDst, rfl⟩
      rw [hstored, Option.bind_some, hdecoded, Option.map_some]
  | false =>
    simp only [hcompressed, Bool.false_eq_true, if_false] at h hsound ⊢
    cases hlink : r.isLink with
    | true =>
      simp only [hlink, if_true] at h hsound ⊢
      obtain ⟨⟨code, target⟩, hcreate, h⟩ := Option.map_eq_some_iff.1 h
      obtain ⟨rfl, rfl⟩ := Prod.mk.inj h
      obtain ⟨⟨target', hstored, rfl⟩, hdone⟩ := createSymlink_stored hsound hcreate
      exact ⟨⟨.link target', by rw [hstored, Option.map_some], rfl⟩, hdone⟩
    | false =>
      simp only [hlink, Bool.false_eq_true, if_false] at h hsound ⊢
      obtain ⟨⟨code, bytes⟩, hcreate, h⟩ := Option.map_eq_some_iff.1 h
      obtain ⟨rfl, rfl⟩ := Prod.mk.inj h
      obtain ⟨⟨bytes', hstored, rfl⟩, hdone⟩ := createFile_stored hsound hcreate
      exact ⟨⟨.file bytes', by rw [hstored, Option.map_some], rfl⟩, hdone⟩

/-- **Contents that could be read, decoded and written are created without an error.** -/
lemma createContents_done {x : Entry} (hdone : BodyDone img o obj r)
    (hx : img.bodyEntry obj r = some x) (h : createContents img o obj r = some (code, entry)) :
    code = 0 := by
  rw [createContents] at h
  rw [BodyDone] at hdone
  rw [Image.bodyEntry] at hx
  cases hcompressed : r.hasFlag compressedFile with
  | true =>
    simp only [hcompressed, if_true] at h hdone hx
    obtain ⟨decoded, hdecoded, -⟩ := Option.map_eq_some_iff.1 hx
    obtain ⟨stored, hstored, hdecoded⟩ := Option.bind_eq_some_iff.1 hdecoded
    obtain ⟨⟨code', bytes, auth⟩, hcreate, h⟩ := Option.map_eq_some_iff.1 h
    obtain ⟨rfl, -⟩ := Prod.mk.inj h
    exact (createDecompressFile_done hstored hdecoded hdone.1 hdone.2 hcreate).1
  | false =>
    simp only [hcompressed, Bool.false_eq_true, if_false] at h hdone hx
    cases hlink : r.isLink with
    | true =>
      simp only [hlink, if_true] at h hdone hx
      obtain ⟨⟨code', target⟩, hcreate, h⟩ := Option.map_eq_some_iff.1 h
      obtain ⟨rfl, -⟩ := Prod.mk.inj h
      exact createSymlink_done hdone.1 hdone.2.1 hcreate
    | false =>
      simp only [hlink, Bool.false_eq_true, if_false] at h hdone hx
      obtain ⟨stored, hstored, -⟩ := Option.map_eq_some_iff.1 hx
      obtain ⟨⟨code', bytes⟩, hcreate, h⟩ := Option.map_eq_some_iff.1 h
      obtain ⟨rfl, -⟩ := Prod.mk.inj h
      exact (createFile_done hstored hdone hcreate).1

/-- What is stored in blocks that lie next to each other is in the image. -/
lemma held_of_stored {bytes : Bytes} (hmapped : TargetMapped img obj r)
    (hstored : img.stored obj r = some bytes) (hpos : 0 < r.sizeInBytes) :
    (r.extents.headD ⟨0, 0, 0⟩).begin * img.blockSize + r.sizeInBytes ≤ img.data.length := by
  -- the last block of the target
  obtain ⟨j, hj⟩ : ∃ j, img.blocksOf r.sizeInBytes = j + 1 := ⟨_, Image.blocksOf_pos hpos⟩
  have hlt : j * img.blockSize < r.sizeInBytes := Image.lt_blocksOf.1 (by omega)
  have hge : r.sizeInBytes ≤ (j + 1) * img.blockSize := by
    by_contra hnot
    have : j + 1 < img.blocksOf r.sizeInBytes := Image.lt_blocksOf.2 (Nat.not_le.1 hnot)
    omega
  obtain ⟨chunk, hchunk⟩ := Image.fileChunk_of_storedFrom hstored (Nat.zero_le j) (by omega)
  rw [Image.fileChunk, hmapped j hlt, Option.bind_some] at hchunk
  split_ifs at hchunk with hheld
  rw [Nat.succ_mul] at hge
  have hsize : img.chunkSize r j = r.sizeInBytes - j * img.blockSize := min_eq_right (by omega)
  rw [hsize, Nat.add_mul] at hheld
  omega

/-- What is created is no device, and a target ends before its first zero byte. -/
lemma createContents_clean {x : Entry} (h : createContents img o obj r = some (code, some x)) :
    x.Clean := by
  rw [createContents] at h
  split_ifs at h with hcompressed hlink
  · obtain ⟨⟨code', bytes, auth⟩, -, h⟩ := Option.map_eq_some_iff.1 h
    obtain ⟨bytes', -, rfl⟩ := Option.map_eq_some_iff.1 (Prod.mk.inj h).2
    exact trivial
  · obtain ⟨⟨code', target⟩, hcreate, h⟩ := Option.map_eq_some_iff.1 h
    obtain ⟨target', rfl, rfl⟩ := Option.map_eq_some_iff.1 (Prod.mk.inj h).2
    exact createSymlink_noZero hcreate
  · obtain ⟨⟨code', bytes⟩, -, h⟩ := Option.map_eq_some_iff.1 h
    obtain ⟨bytes', -, rfl⟩ := Option.map_eq_some_iff.1 (Prod.mk.inj h).2
    exact trivial

/-- **The contents are sound if they could be read, decoded and written**, and are no target with
a zero byte in it. -/
theorem bodySound_of_done {x : Entry} (hdone : BodyDone img o obj r)
    (hx : img.bodyEntry obj r = some x) (hclean : x.Clean) : BodySound img o obj r := by
  rw [BodyDone] at hdone
  rw [Image.bodyEntry] at hx
  rw [BodySound]
  cases hcompressed : r.hasFlag compressedFile with
  | true =>
    simp only [hcompressed, if_true] at hdone hx ⊢
    obtain ⟨decoded, hdecoded, -⟩ := Option.map_eq_some_iff.1 hx
    obtain ⟨stored, hstored, -⟩ := Option.bind_eq_some_iff.1 hdecoded
    refine ⟨blocksSound_of_done hstored hdone.1, fun bytes hbytes => ?_⟩
    rw [hdone.2.2.2] at hbytes
    cases hbytes
  | false =>
    simp only [hcompressed, Bool.false_eq_true, if_false] at hdone hx ⊢
    cases hlink : r.isLink with
    | true =>
      simp only [hlink, if_true] at hdone hx ⊢
      obtain ⟨hread, -, hmapped⟩ := hdone
      obtain ⟨target, hstored, rfl⟩ := Option.map_eq_some_iff.1 hx
      refine ⟨by rw [hread]; decide, hmapped, fun hpos => held_of_stored hmapped hstored hpos,
        fun target' htarget' => ?_⟩
      obtain rfl := Option.some.inj (hstored.symm.trans htarget')
      exact hclean
    | false =>
      simp only [hlink, Bool.false_eq_true, if_false] at hdone hx ⊢
      obtain ⟨stored, hstored, -⟩ := Option.map_eq_some_iff.1 hx
      exact blocksSound_of_done hstored hdone

/-- What is created without an error is there, under a name with which that can be done. -/
lemma createContents_isSome (h : createContents img o obj r = some (0, entry)) :
    entry.isSome ∧ (o.creat = true ∨ o.symlink = true) := by
  rw [createContents] at h
  split at h
  · obtain ⟨⟨code, bytes, auth⟩, hcreate, h⟩ := Option.map_eq_some_iff.1 h
    obtain ⟨rfl, rfl⟩ := Prod.mk.inj h
    obtain ⟨tmp, bytes', htmp, -, -, -, rfl, -⟩ := createDecompressFile_cases hcreate
    exact ⟨rfl, Or.inl (createFile_isSome htmp).2⟩
  · split at h
    · obtain ⟨⟨code, target⟩, hcreate, h⟩ := Option.map_eq_some_iff.1 h
      obtain ⟨rfl, rfl⟩ := Prod.mk.inj h
      rw [Option.isSome_map]
      exact ⟨(createSymlink_isSome hcreate).1, Or.inr (createSymlink_isSome hcreate).2⟩
    · obtain ⟨⟨code, bytes⟩, hcreate, h⟩ := Option.map_eq_some_iff.1 h
      obtain ⟨rfl, rfl⟩ := Prod.mk.inj h
      rw [Option.isSome_map]
      exact ⟨(createFile_isSome hcreate).1, Or.inl (createFile_isSome hcreate).2⟩

lemma unpackFile_isSome (h : unpackFile img o obj r = some (0, entry)) : entry.isSome := by
  rw [unpackFile] at h
  split at h
  · rw [createSpecFile] at h
    split at h
    · obtain ⟨-, rfl⟩ := Prod.mk.inj (Option.some.inj h)
      rfl
    · obtain ⟨hcode, -⟩ := Prod.mk.inj (Option.some.inj h)
      exact absurd hcode (by decide)
  · exact (createContents_isSome h).1

end SamsungTVVoices.Extractor
