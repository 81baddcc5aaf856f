/-
The reader of `newc` archives.

An entry is the magic `070701`, thirteen fields of eight hexadecimal digits, the name with
its NUL, and the data; the header with the name, and the data, are padded so that what
follows starts at a multiple of four bytes of the whole file.  The archive ends with the
entry called `TRAILER!!!`.

The reader is told at which offset of the file its bytes start.  `readEntry_append` and
`readEntries_append` say what it returns on bytes that some writer laid out entry by entry:
the entries, and nothing is left over.
-/
import SamsungTVVoices.Lib.Digits

open FixedDigits

namespace Newc

/-- The fields of an entry's header, in the order of the file. -/
structure Header where
  ino : ℕ
  mode : ℕ
  uid : ℕ
  gid : ℕ
  nlink : ℕ
  mtime : ℕ
  filesize : ℕ
  devmajor : ℕ
  devminor : ℕ
  rdevmajor : ℕ
  rdevminor : ℕ
  namesize : ℕ
  check : ℕ
deriving DecidableEq, Repr

namespace Header

def fields (h : Header) : List ℕ :=
  [h.ino, h.mode, h.uid, h.gid, h.nlink, h.mtime, h.filesize, h.devmajor, h.devminor,
    h.rdevmajor, h.rdevminor, h.namesize, h.check]

def ofFields : List ℕ → Option Header
  | [a, b, c, d, e, f, g, h, i, j, k, l, m] => some ⟨a, b, c, d, e, f, g, h, i, j, k, l, m⟩
  | _ => none

@[simp] lemma ofFields_fields (h : Header) : ofFields h.fields = some h := rfl

@[simp] lemma length_fields (h : Header) : h.fields.length = 13 := rfl

end Header

/-- An entry as the reader returns it. -/
structure Entry where
  header : Header
  name : List UInt8
  data : List UInt8
deriving DecidableEq, Repr

/-- `070701` in ASCII. -/
def magic : List UInt8 := [48, 55, 48, 55, 48, 49]

/-- `TRAILER!!!` in ASCII. -/
def trailer : List UInt8 := [84, 82, 65, 73, 76, 69, 82, 33, 33, 33]

/-- The length of the magic and the fields. -/
def headerSize : ℕ := 110

/-- The number of bytes from offset `n` to the next multiple of four. -/
def padding (n : ℕ) : ℕ := (4 - n % 4) % 4

lemma padding_spec (n : ℕ) : (n + padding n) % 4 = 0 := by
  unfold padding
  omega

/-! ### The reader -/

/-- The next `n` bytes and what follows them. -/
def takeExact (n : ℕ) (bs : List UInt8) : Option (List UInt8 × List UInt8) :=
  if n ≤ bs.length then some (bs.take n, bs.drop n) else none

/-- The next `n` fields of a header. -/
def readFields : ℕ → List UInt8 → Option (List ℕ × List UInt8)
  | 0, bs => some ([], bs)
  | n + 1, bs => do
      let (field, bs) ← takeExact 8 bs
      let x ← ofHexField field
      let (xs, bs) ← readFields n bs
      some (x :: xs, bs)

/-- The entry at the start of `bs`, which are the bytes of the file from `offset` on, and the
bytes after its padding. -/
def readEntry (offset : ℕ) (bs : List UInt8) : Option (Entry × List UInt8) := do
  let (start, bs) ← takeExact 6 bs
  guard (start = magic)
  let (fields, bs) ← readFields 13 bs
  let h ← Header.ofFields fields
  let (name, bs) ← takeExact h.namesize bs
  guard (name.getLast? = some 0)
  let (_, bs) ← takeExact (padding (offset + headerSize + h.namesize)) bs
  let dataStart := offset + headerSize + h.namesize +
    padding (offset + headerSize + h.namesize)
  let (data, bs) ← takeExact h.filesize bs
  let (_, bs) ← takeExact (padding (dataStart + h.filesize)) bs
  some (⟨h, name.dropLast, data⟩, bs)

/-- The entries before the trailer and the bytes after it; at most `k` entries are read. -/
def readEntries : ℕ → ℕ → List UInt8 → Option (List Entry × List UInt8)
  | 0, _, _ => none
  | k + 1, offset, bs => do
      let (e, rest) ← readEntry offset bs
      if e.name = trailer then some ([], rest)
      else
        let (es, rest') ← readEntries k (offset + (bs.length - rest.length)) rest
        some (e :: es, rest')

/-- The archive that starts at `offset` of a file with the bytes `bs`. -/
def readArchive (offset : ℕ) (bs : List UInt8) : Option (List Entry × List UInt8) :=
  readEntries bs.length offset bs

/-! ### What it returns on a well-formed archive -/

@[simp] lemma takeExact_append (xs ys : List UInt8) :
    takeExact xs.length (xs ++ ys) = some (xs, ys) := by
  simp [takeExact]

lemma takeExact_append_of_length {n : ℕ} {xs : List UInt8} (h : xs.length = n)
    (ys : List UInt8) : takeExact n (xs ++ ys) = some (xs, ys) := by
  subst h
  exact takeExact_append xs ys

/-- The fields are read back if each of them fits in eight digits. -/
lemma readFields_append (xs : List ℕ) (h : ∀ x ∈ xs, x < 2 ^ 32) (rest : List UInt8) :
    readFields xs.length (xs.flatMap (hexField 8) ++ rest) = some (xs, rest) := by
  induction xs with
  | nil => rfl
  | cons x xs ih =>
      have hx : (hexField 8 x).length = 8 :=
        length_hexField_of_lt (by norm_num) (by simpa using h x List.mem_cons_self)
      have hxs := ih fun y hy => h y (List.mem_cons_of_mem _ hy)
      rw [List.length_cons, readFields, List.flatMap_cons, List.append_assoc,
        takeExact_append_of_length hx]
      simp [ofHexField_hexField, hxs]

lemma length_flatMap_hexField (xs : List ℕ) (h : ∀ x ∈ xs, x < 2 ^ 32) :
    (xs.flatMap (hexField 8)).length = 8 * xs.length := by
  induction xs with
  | nil => rfl
  | cons x xs ih =>
      have hx : (hexField 8 x).length = 8 :=
        length_hexField_of_lt (by norm_num) (by simpa using h x List.mem_cons_self)
      rw [List.flatMap_cons, List.length_append, hx, List.length_cons,
        ih fun y hy => h y (List.mem_cons_of_mem _ hy)]
      ring

/-- An entry as a writer lays it out: with the bytes that pad its name and its data. -/
structure Block where
  entry : Entry
  namePad : List UInt8
  dataPad : List UInt8

namespace Block

def bytes (b : Block) : List UInt8 :=
  magic ++ b.entry.header.fields.flatMap (hexField 8) ++ (b.entry.name ++ [0]) ++ b.namePad ++
    b.entry.data ++ b.dataPad

/-- What makes a block readable wherever a multiple of four bytes comes before it. -/
structure WellFormed (b : Block) : Prop where
  fits : ∀ x ∈ b.entry.header.fields, x < 2 ^ 32
  namesize : b.entry.header.namesize = b.entry.name.length + 1
  filesize : b.entry.header.filesize = b.entry.data.length
  namePad : b.namePad.length = padding (headerSize + b.entry.header.namesize)
  dataPad : b.dataPad.length = padding b.entry.data.length

lemma WellFormed.length_bytes {b : Block} (h : b.WellFormed) : b.bytes.length =
    headerSize + b.entry.header.namesize + b.namePad.length + b.entry.data.length +
      b.dataPad.length := by
  have hfields := length_flatMap_hexField _ h.fits
  rw [bytes]
  simp only [List.length_append, hfields, Header.length_fields, h.namesize, magic, headerSize,
    List.length_cons, List.length_nil]

/-- A block keeps the alignment. -/
lemma WellFormed.length_bytes_mod {b : Block} (h : b.WellFormed) : b.bytes.length % 4 = 0 := by
  have hname := padding_spec (headerSize + b.entry.header.namesize)
  have hdata := padding_spec b.entry.data.length
  rw [h.length_bytes, h.namePad, h.dataPad]
  omega

lemma WellFormed.bytes_ne_nil {b : Block} (h : b.WellFormed) : 0 < b.bytes.length := by
  rw [h.length_bytes, headerSize]
  omega

end Block

/-- The reader returns the entry of a block and stops behind its padding. -/
theorem readEntry_append {offset : ℕ} (hoffset : offset % 4 = 0) {b : Block} (h : b.WellFormed)
    (rest : List UInt8) : readEntry offset (b.bytes ++ rest) = some (b.entry, rest) := by
  have hmagic (bs : List UInt8) : takeExact 6 (magic ++ bs) = some (magic, bs) :=
    takeExact_append_of_length (n := 6) rfl bs
  have hfields (bs : List UInt8) := readFields_append b.entry.header.fields h.fits bs
  rw [Header.length_fields] at hfields
  have hname : (b.entry.name ++ [0]).length = b.entry.header.namesize := by simp [h.namesize]
  -- the paddings from the start of the file are those from the start of the block
  have hpad : b.namePad.length = padding (offset + headerSize + b.entry.header.namesize) := by
    rw [h.namePad, padding, padding]
    omega
  have hpad' : b.dataPad.length = padding (offset + headerSize + b.entry.header.namesize +
      padding (offset + headerSize + b.entry.header.namesize) + b.entry.header.filesize) := by
    have := padding_spec (offset + headerSize + b.entry.header.namesize)
    rw [h.dataPad, h.filesize, padding, padding]
    omega
  simp only [readEntry, Block.bytes, List.append_assoc, hmagic, Option.bind_eq_bind,
    Option.bind_some, guard_true, hfields, Header.ofFields_fields]
  rw [← List.append_assoc b.entry.name [0], takeExact_append_of_length hname]
  simp only [Option.bind_some, List.getLast?_append, List.getLast?_singleton]
  rw [takeExact_append_of_length hpad]
  simp only [Option.bind_some]
  rw [takeExact_append_of_length h.filesize.symm]
  simp only [Option.bind_some]
  rw [takeExact_append_of_length hpad']
  simp

/-- The entries of an archive up to its trailer. -/
theorem readEntries_append {last : Block} (hlast : last.WellFormed)
    (htrailer : last.entry.name = trailer) (rest : List UInt8) (blocks : List Block) :
    ∀ {k offset : ℕ}, offset % 4 = 0 → blocks.length < k →
      (∀ b ∈ blocks, b.WellFormed ∧ b.entry.name ≠ trailer) →
      readEntries k offset (blocks.flatMap Block.bytes ++ (last.bytes ++ rest)) =
        some (blocks.map Block.entry, rest) := by
  induction blocks with
  | nil =>
      rintro (_ | k) offset hoffset hk -
      · exact absurd hk (Nat.not_lt_zero _)
      · simp [readEntries, readEntry_append hoffset hlast, htrailer]
  | cons b blocks ih =>
      rintro (_ | k) offset hoffset hk hblocks
      · exact absurd hk (Nat.not_lt_zero _)
      · obtain ⟨hb, hname⟩ := hblocks b List.mem_cons_self
        have hnext : (offset + b.bytes.length) % 4 = 0 := by
          have := hb.length_bytes_mod
          omega
        have htail := ih hnext (by simpa using hk)
          fun c hc => hblocks c (List.mem_cons_of_mem _ hc)
        simp [readEntries, readEntry_append hoffset hb, hname, htail]

/-- **Reading an archive.**  Well-formed blocks followed by a trailer are read as their
entries, with nothing left over, wherever they start on a four-byte boundary. -/
theorem readArchive_append {offset : ℕ} (hoffset : offset % 4 = 0) {last : Block}
    (hlast : last.WellFormed) (htrailer : last.entry.name = trailer) {blocks : List Block}
    (hblocks : ∀ b ∈ blocks, b.WellFormed ∧ b.entry.name ≠ trailer) :
    readArchive offset (blocks.flatMap Block.bytes ++ last.bytes) =
      some (blocks.map Block.entry, []) := by
  have hlength : blocks.length ≤ (blocks.flatMap Block.bytes).length := by
    clear hlast htrailer
    induction blocks with
    | nil => simp
    | cons b blocks ih =>
        have hpos := (hblocks b List.mem_cons_self).1.bytes_ne_nil
        have := ih fun c hc => hblocks c (List.mem_cons_of_mem _ hc)
        simp only [List.flatMap_cons, List.length_append, List.length_cons]
        omega
  have hpos := hlast.bytes_ne_nil
  have h := readEntries_append hlast htrailer [] blocks (k :=
    (blocks.flatMap Block.bytes ++ last.bytes).length) hoffset
    (by rw [List.length_append]; omega) hblocks
  rw [List.append_nil] at h
  exact h

end Newc
