/-
Records whose contents are kept elsewhere (`process_dlink_unpack`, `unpack_dlink_file` and
`create_hlink` of `unpack.c`).

A `DLINK` record is a part of the file that its data inode holds.  That file is unpacked to a
temporary file, which stays open for the records that follow: one for each kind of compressed data
inode, told by the inode, and a single one for all that are not compressed.  `DlinkInfo.Holds`
says what the open files have in them, and is kept as long as there is one data inode of the last
kind.  A `HLINK` record has the contents of the body of its inode.
-/
import SamsungTVVoices.Extractor.Files

namespace SamsungTVVoices.Extractor

/-! ### The temporary files -/

/-- A descriptor: -1, open on a file with these bytes, or one that has been closed or never set. -/
inductive Fd
  | unset
  | opened (bytes : Bytes)
  | stale
deriving DecidableEq

/-- A closed number may be given to another file and be closed again. -/
def Fd.close : Fd → Fd
  | .unset => .unset
  | _ => .stale

/-- The temporary file of a compressed data inode. -/
structure Slot where
  inode : ℕ
  fd : Fd
deriving DecidableEq

/-- `struct vdfs4_dlink_info`: the descriptors but two are not initialised to -1. -/
structure DlinkInfo where
  file : Fd := .unset
  comp : Slot := ⟨0, .unset⟩
  auth : Slot := ⟨0, .stale⟩
  roAuth : Slot := ⟨0, .stale⟩
  signed : Slot := ⟨0, .stale⟩
deriving DecidableEq

namespace DlinkInfo

/-- `close` of the descriptor of one of the files. -/
def close (dl : DlinkInfo) : DlinkInfo where
  file := dl.file.close
  comp := { dl.comp with fd := dl.comp.fd.close }
  auth := { dl.auth with fd := dl.auth.fd.close }
  roAuth := { dl.roAuth with fd := dl.roAuth.fd.close }
  signed := { dl.signed with fd := dl.signed.fd.close }

/-- The files of compressed data inodes, in the order in which they are looked at. -/
def slots (dl : DlinkInfo) : List Slot := [dl.comp, dl.auth, dl.roAuth, dl.signed]

/-- The open file of a compressed data inode. -/
def cached (dl : DlinkInfo) (inode : ℕ) : Option Fd :=
  (dl.slots.find? fun s => s.inode = inode).map Slot.fd

/-- The file that has been unpacked is kept by the flags of its record, to which the decompressor
adds that it is authenticated. -/
def keep (dl : DlinkInfo) (r : Record) (auth : Bool) (s : Slot) : DlinkInfo :=
  if r.hasFlag signedDlink then { dl with signed := s }
  else if r.hasFlag readOnlyAuth then { dl with roAuth := s }
  else if r.hasFlag authFile || auth then { dl with auth := s }
  else { dl with comp := s }

end DlinkInfo

variable (img : Image) (o : Outcomes)

/-- `unpack_dlink_file`: the code, the descriptor, which a failure leaves unset, and the open
files. -/
def unpackDlinkFile (inode : ℕ) (dl : DlinkInfo) : Option (ℤ × Fd × DlinkInfo) :=
  match if o.child then (img.children inode).head? else none with
  | none => some (-enoent, .stale, dl)
  | some r =>
    if r.hasFlag compressedFile then
      match dl.cached inode with
      | some fd => some (0, fd, dl)
      | none =>
        (createDecompressFile img o inode r).map fun (ret, bytes, auth) =>
          if ret ≠ 0 then (ret, .stale, dl)
          else if o.openTemp then
            (0, .opened (bytes.getD []), dl.keep r auth ⟨inode, .opened (bytes.getD [])⟩)
          else (o.errno.1, .stale, dl)
    else if dl.file = .unset then
      (createFile img o inode r).map fun (ret, bytes) =>
        if ret ≠ 0 then (ret, .stale, dl)
        else if o.openTemp then
          (0, .opened (bytes.getD []), { dl with file := .opened (bytes.getD []) })
        else (o.errno.1, .stale, dl)
    else some (0, dl.file, dl)

/-- `lseek` and `read`: the bytes if they are as many as are wanted.  Nothing is known of what a
stale descriptor gives, or one whose position could not be set. -/
def readTempFile (fd : Fd) (offset length : ℕ) : Option Bytes :=
  let read := match fd with
    | .unset => none
    | .opened bytes =>
      if 2 ^ 63 ≤ offset then o.stale
      else if o.readTemp then some ((bytes.drop offset).take length) else none
    | .stale => o.stale
  read.filter fun bytes => bytes.length = length

/-- `process_dlink_unpack`: the code, what has been created and the open files.  Where a symbolic
link is created the code is that of `symlink`. -/
def processDlinkUnpack (r : Record) (dl : DlinkInfo) : Option (ℤ × Option Entry × DlinkInfo) :=
  (unpackDlinkFile img o r.dataInode dl).map fun (ret, fd, dl) =>
    match readTempFile o fd r.dataOffset r.dataLength with
    | none => (enodata, none, dl.close)
    | some data =>
      if r.isLink then
        if o.symlink then (0, some (.link (cString data)), dl)
        else (o.errno.1, none, dl.close)
      else if o.openOut then
        match o.writeOut.taken data with
        | none => (o.errno.1, some (.file []), dl.close)
        | some bytes =>
          if bytes.length ≠ data.length then (enodata, some (.file bytes), dl.close)
          else (|ret|, some (.file bytes), if ret = 0 then dl else dl.close)
      else (-enoent, none, dl.close)

/-- `create_hlink`: nothing is created, and 0 returned, if the body is not found. -/
def createHlink (ino : ℕ) (dl : DlinkInfo) : Option (ℤ × Option Entry × DlinkInfo) :=
  match if o.find then img.cattreeFind ino else none with
  | none => some (0, none, dl)
  | some r =>
    (if r.recordType = .dlink then processDlinkUnpack img o r dl
      else (createContents img o ino r).map fun (ret, entry) => (ret, entry, dl)).map
    fun (ret, entry, dl) => if ret ≠ 0 then (ret, entry, dl) else (o.attributes, entry, dl)

/-! ### What they are to create -/

namespace Image

/-- The file of a data inode. -/
def dataRecord (inode : ℕ) : Option Record :=
  (img.children inode).head?.filter fun r => r.parentId = inode && r.recordType = .file

/-- What the file of a data inode holds. -/
def dataContents (inode : ℕ) : Option Bytes :=
  (img.dataRecord inode).bind fun r =>
    if r.hasFlag compressedFile then (img.stored inode r).bind img.decoded
    else img.stored inode r

/-- The contents of a `DLINK` record: `data_length` bytes at `data_offset` of its data inode. -/
def dlinkEntry (r : Record) : Option Entry :=
  (img.dataContents r.dataInode).bind fun bytes =>
    if r.dataOffset + r.dataLength ≤ bytes.length then
      let data := (bytes.drop r.dataOffset).take r.dataLength
      some (if r.isLink then .link data else .file data)
    else none

/-- The body of a hard link. -/
def hlinkBody (ino : ℕ) : Option Record :=
  (img.cattreeFind ino).filter fun r => r.recordType = .file || r.recordType = .dlink

/-- The contents of a `HLINK` record. -/
def hlinkEntry (ino : ℕ) : Option Entry :=
  (img.hlinkBody ino).bind fun r =>
    if r.recordType = .dlink then img.dlinkEntry r else img.fileEntry ino r

/-- The data inode of a `DLINK` record is not compressed. -/
def PlainData (r : Record) : Prop :=
  ∃ s, img.dataRecord r.dataInode = some s ∧ s.hasFlag compressedFile = false

end Image

/-- The file of the data inode `inode` could be unpacked. -/
def DataDone (inode : ℕ) (s : Record) : Prop :=
  BlocksDone img o inode s ∧ (s.hasFlag compressedFile = true →
    o.openTmp = true ∧ o.openDst = true ∧ o.decode = none)

/-- The operations for a `DLINK` record were done. -/
structure DlinkDone (r : Record) : Prop where
  child : o.child = true
  unpacked : ∀ s, img.dataRecord r.dataInode = some s → DataDone img o r.dataInode s
  openTemp : o.openTemp = true
  readTemp : o.readTemp = true
  symlink : r.isLink = true → o.symlink = true
  openOut : r.isLink = false → o.openOut = true
  writeOut : r.isLink = false →
    o.writeOut ≠ .failed ∧ ∀ n, o.writeOut = .part n → r.dataLength ≤ n

/-- A `DLINK` record is unpacked as it is stored: no operation fails, the data inode and the part
of it are there, and there is no zero byte in a target. -/
structure DlinkSound (r : Record) : Prop where
  done : DlinkDone img o r
  entry : ∃ x, img.dlinkEntry r = some x
  inode : r.dataInode ≠ 0
  offset : r.dataOffset < 2 ^ 63
  noZero : r.isLink = true → ∀ target, img.dlinkEntry r = some (.link target) → 0 ∉ target

/-- The open files hold what their data inodes do; `plain` is the one data inode that is not
compressed. -/
structure DlinkInfo.Holds (plain : ℕ) (dl : DlinkInfo) : Prop where
  file : dl.file = .unset ∨ ∃ bytes, dl.file = .opened bytes ∧ img.dataContents plain = some bytes
  slots : ∀ s ∈ dl.slots, s.inode ≠ 0 →
    ∃ bytes, s.fd = .opened bytes ∧ img.dataContents s.inode = some bytes

variable {img o} {r s : Record} {dl dl' : DlinkInfo} {plain inode : ℕ} {fd : Fd} {ret : ℤ}
  {entry : Option Entry} {bytes : Bytes}

namespace DlinkInfo

/-- At first no file is open. -/
lemma holds_init : Holds img plain {} := by
  refine ⟨Or.inl rfl, fun s hs hinode => ?_⟩
  simp only [slots, List.mem_cons, List.not_mem_nil, or_false] at hs
  rcases hs with rfl | rfl | rfl | rfl <;> exact absurd rfl hinode

lemma mem_slots_keep {auth : Bool} {s₀ s₁ : Slot} (h : s₁ ∈ (dl.keep r auth s₀).slots) :
    s₁ = s₀ ∨ s₁ ∈ dl.slots := by
  rw [keep] at h
  split_ifs at h <;> simp only [slots, List.mem_cons, List.not_mem_nil, or_false] at h ⊢ <;> tauto

@[simp] lemma file_keep {auth : Bool} {s₀ : Slot} : (dl.keep r auth s₀).file = dl.file := by
  unfold keep
  split_ifs <;> rfl

/-- A file that is unpacked is kept. -/
lemma Holds.keep (h : Holds img plain dl) {auth : Bool}
    (hbytes : img.dataContents inode = some bytes) :
    Holds img plain (dl.keep r auth ⟨inode, .opened bytes⟩) := by
  refine ⟨by rw [file_keep]; exact h.file, fun s₁ hs₁ hinode => ?_⟩
  rcases mem_slots_keep hs₁ with rfl | hs₁
  · exact ⟨bytes, rfl, hbytes⟩
  · exact h.slots s₁ hs₁ hinode

lemma Holds.cached (h : Holds img plain dl) (hinode : inode ≠ 0)
    (hfd : dl.cached inode = some fd) (hbytes : img.dataContents inode = some bytes) :
    fd = .opened bytes := by
  obtain ⟨s, hfind, rfl⟩ := Option.map_eq_some_iff.1 hfd
  obtain rfl : s.inode = inode := by simpa using List.find?_some hfind
  obtain ⟨bytes', hopened, hbytes'⟩ := h.slots s (List.mem_of_find?_eq_some hfind) hinode
  rw [hbytes] at hbytes'
  rw [hopened, Option.some.inj hbytes']

end DlinkInfo

/-- The first child of a data inode is its file. -/
lemma head_children_of_dataRecord (h : img.dataRecord inode = some s) :
    (img.children inode).head? = some s :=
  (Option.filter_eq_some_iff.1 h).1

/-- **The file of a data inode is unpacked once.**  It is open afterwards, with what is stored. -/
lemma unpackDlinkFile_sound (hholds : dl.Holds img plain) (hinode : inode ≠ 0)
    (hs : img.dataRecord inode = some s) (hbytes : img.dataContents inode = some bytes)
    (hchild : o.child = true) (hdone : DataDone img o inode s) (hopen : o.openTemp = true)
    (hplain : s.hasFlag compressedFile = false → inode = plain)
    (h : unpackDlinkFile img o inode dl = some (ret, fd, dl')) :
    ret = 0 ∧ fd = .opened bytes ∧ dl'.Holds img plain := by
  have hstored := hbytes
  rw [Image.dataContents, hs, Option.bind_some] at hstored
  rw [unpackDlinkFile] at h
  rw [if_pos hchild, head_children_of_dataRecord hs] at h
  simp only at h
  cases hcompressed : s.hasFlag compressedFile with
  | true =>
    rw [if_pos hcompressed] at h hstored
    cases hcached : dl.cached inode with
    | some fd' =>
      simp only [hcached, Option.some.injEq, Prod.mk.injEq] at h
      obtain ⟨rfl, rfl, rfl⟩ := h
      exact ⟨rfl, hholds.cached hinode hcached hbytes, hholds⟩
    | none =>
      simp only [hcached] at h
      obtain ⟨stored, hblocks, hdecoded⟩ := Option.bind_eq_some_iff.1 hstored
      obtain ⟨⟨code, file, auth⟩, hcreate, h⟩ := Option.map_eq_some_iff.1 h
      obtain ⟨rfl, rfl⟩ := createDecompressFile_done hblocks hdecoded hdone.1
        (hdone.2 hcompressed) hcreate
      simp only [ne_eq, not_true_eq_false, if_false, hopen, if_true, Option.getD_some] at h
      simp only [Prod.mk.injEq] at h
      obtain ⟨rfl, rfl, rfl⟩ := h
      exact ⟨rfl, rfl, hholds.keep hbytes⟩
  | false =>
    obtain rfl := hplain hcompressed
    rw [if_neg (by simp [hcompressed])] at h hstored
    rcases hholds.file with hunset | ⟨bytes', hopened, hbytes'⟩
    · rw [if_pos hunset] at h
      obtain ⟨⟨code, file⟩, hcreate, h⟩ := Option.map_eq_some_iff.1 h
      obtain ⟨rfl, rfl⟩ := createFile_done hstored hdone.1 hcreate
      simp only [ne_eq, not_true_eq_false, if_false, hopen, if_true, Option.getD_some] at h
      simp only [Prod.mk.injEq] at h
      obtain ⟨rfl, rfl, rfl⟩ := h
      exact ⟨rfl, rfl, Or.inr ⟨bytes, rfl, hbytes⟩, hholds.slots⟩
    · rw [if_neg (by rw [hopened]; exact Fd.noConfusion)] at h
      simp only [Option.some.injEq, Prod.mk.injEq] at h
      obtain ⟨rfl, rfl, rfl⟩ := h
      rw [hbytes] at hbytes'
      exact ⟨rfl, by rw [hopened, Option.some.inj hbytes'], hholds⟩

/-- **A data link gets its part of the file.** -/
theorem processDlinkUnpack_sound (hholds : dl.Holds img plain) (hsound : DlinkSound img o r)
    (hplain : img.PlainData r → r.dataInode = plain)
    (h : processDlinkUnpack img o r dl = some (ret, entry, dl')) :
    ret = 0 ∧ entry = img.dlinkEntry r ∧ dl'.Holds img plain := by
  obtain ⟨x, hx⟩ := hsound.entry
  have hentry := hx
  rw [Image.dlinkEntry] at hentry
  obtain ⟨bytes, hbytes, hentry⟩ := Option.bind_eq_some_iff.1 hentry
  obtain ⟨s, hs, -⟩ := Option.bind_eq_some_iff.1 hbytes
  split at hentry
  case isFalse => cases hentry
  case isTrue hle =>
  obtain ⟨⟨code, fd, dl₁⟩, hunpack, h⟩ := Option.map_eq_some_iff.1 h
  obtain ⟨rfl, rfl, hholds'⟩ := unpackDlinkFile_sound hholds hsound.inode hs hbytes
    hsound.done.child (hsound.done.unpacked s hs) hsound.done.openTemp
    (fun hcompressed => hplain ⟨s, hs, hcompressed⟩) hunpack
  have hlength : ((bytes.drop r.dataOffset).take r.dataLength).length = r.dataLength := by
    rw [List.length_take, List.length_drop]
    omega
  have hread : readTempFile o (.opened bytes) r.dataOffset r.dataLength =
      some ((bytes.drop r.dataOffset).take r.dataLength) := by
    simp only [readTempFile, if_neg (Nat.not_le.2 hsound.offset), if_pos hsound.done.readTemp]
    rw [Option.filter_some, if_pos (decide_eq_true hlength)]
  simp only [hread] at h
  cases hlink : r.isLink with
  | true =>
    simp only [hlink, if_true, hsound.done.symlink hlink] at h hentry
    simp only [Prod.mk.injEq] at h
    obtain ⟨rfl, rfl, rfl⟩ := h
    refine ⟨rfl, ?_, hholds'⟩
    obtain rfl := Option.some.inj hentry
    rw [hx, cString_of_noZero (hsound.noZero hlink _ hx)]
  | false =>
    simp only [hlink, Bool.false_eq_true, if_false, if_true, hsound.done.openOut hlink] at h hentry
    obtain rfl := Option.some.inj hentry
    have hwrite := hsound.done.writeOut hlink
    cases htaken : o.writeOut.taken ((bytes.drop r.dataOffset).take r.dataLength) with
    | none => exact absurd htaken (WriteOutcome.taken_ne_none hwrite.1 _)
    | some written =>
      have hwritten := WriteOutcome.taken_of_le
        (fun n hn => hlength.le.trans (hwrite.2 n hn)) htaken
      simp only [htaken, hwritten, ne_eq, not_true_eq_false, if_false, abs_zero] at h
      simp only [Prod.mk.injEq] at h
      obtain ⟨rfl, rfl, rfl⟩ := h
      exact ⟨rfl, hx.symm, hholds'⟩

/-- What is created for a data link is a file, or a link whose target ends before its first zero
byte. -/
lemma processDlinkUnpack_clean {x : Entry}
    (h : processDlinkUnpack img o r dl = some (ret, some x, dl')) : x.Clean := by
  obtain ⟨⟨code, fd, dl₁⟩, -, h⟩ := Option.map_eq_some_iff.1 h
  simp only at h
  cases hread : readTempFile o fd r.dataOffset r.dataLength with
  | none => simp only [hread, Prod.mk.injEq, reduceCtorEq, false_and, and_false] at h
  | some data =>
    simp only [hread] at h
    by_cases hlink : r.isLink = true
    · rw [if_pos hlink] at h
      split_ifs at h
      · simp only [Prod.mk.injEq, Option.some.injEq] at h
        rw [← h.2.1]
        exact zero_notMem_cString _
      · simp only [Prod.mk.injEq, reduceCtorEq, false_and, and_false] at h
    · rw [if_neg hlink] at h
      by_cases hopen : o.openOut = true
      · -- whatever has been written, it is a file
        rw [if_pos hopen] at h
        cases htaken : o.writeOut.taken data with
        | none =>
          simp only [htaken, Prod.mk.injEq, Option.some.injEq] at h
          rw [← h.2.1]
          exact trivial
        | some bytes =>
          simp only [htaken] at h
          split_ifs at h
          all_goals
            simp only [Prod.mk.injEq, Option.some.injEq] at h
            rw [← h.2.1]
            exact trivial
      · rw [if_neg hopen] at h
        simp only [Prod.mk.injEq, reduceCtorEq, false_and, and_false] at h

/-- A data link that is not cut off is sound if its operations were done. -/
lemma dlinkSound_of_done {x : Entry} (hdone : DlinkDone img o r) (hx : img.dlinkEntry r = some x)
    (hclean : x.Clean) (hinode : r.dataInode ≠ 0) (hoffset : r.dataOffset < 2 ^ 63) :
    DlinkSound img o r := by
  refine ⟨hdone, ⟨x, hx⟩, hinode, hoffset, fun _ target htarget => ?_⟩
  obtain rfl := Option.some.inj (hx.symm.trans htarget)
  exact hclean

/-- Without an error a data link is there. -/
lemma processDlinkUnpack_isSome (h : processDlinkUnpack img o r dl = some (0, entry, dl')) :
    entry.isSome ∧ (o.symlink = true ∨ o.openOut = true) := by
  obtain ⟨⟨code, fd, dl₁⟩, -, h⟩ := Option.map_eq_some_iff.1 h
  simp only at h
  have herrno : ((o.errno.1 : ℕ) : ℤ) ≠ 0 := Int.natCast_ne_zero.2 o.errno.2.ne'
  cases hread : readTempFile o fd r.dataOffset r.dataLength with
  | none =>
    simp only [hread, Prod.mk.injEq] at h
    exact absurd h.1 (by decide)
  | some data =>
    simp only [hread] at h
    by_cases hlink : r.isLink = true
    · rw [if_pos hlink] at h
      by_cases hsymlink : o.symlink = true
      · rw [if_pos hsymlink] at h
        simp only [Prod.mk.injEq] at h
        obtain ⟨-, rfl, -⟩ := h
        exact ⟨rfl, Or.inl hsymlink⟩
      · rw [if_neg hsymlink] at h
        exact absurd (Prod.mk.inj h).1 herrno
    · rw [if_neg hlink] at h
      by_cases hopen : o.openOut = true
      · rw [if_pos hopen] at h
        cases htaken : o.writeOut.taken data with
        | none =>
          simp only [htaken] at h
          exact absurd (Prod.mk.inj h).1 herrno
        | some bytes =>
          simp only [htaken] at h
          by_cases hlength : bytes.length ≠ data.length
          · rw [if_pos hlength] at h
            exact absurd (Prod.mk.inj h).1 (by decide)
          · rw [if_neg hlength] at h
            simp only [Prod.mk.injEq] at h
            obtain ⟨-, rfl, -⟩ := h
            exact ⟨rfl, Or.inr hopen⟩
      · rw [if_neg hopen] at h
        exact absurd (Prod.mk.inj h).1 (by decide)

/-! ### Hard links -/

variable {ino : ℕ}

/-- The body of a hard link is unpacked as it is stored, with no operation failing. -/
structure HlinkSound (img : Image) (o : Outcomes) (ino : ℕ) (b : Record) : Prop where
  body : img.hlinkBody ino = some b
  dlink : b.recordType = .dlink → DlinkSound img o b
  file : b.recordType = .file → b.isSpecial = false ∧ BodyDone img o ino b ∧
    BodySound img o ino b ∧ ∃ x, img.bodyEntry ino b = some x
  find : o.find = true
  link : o.link = true

/-- The body of a hard link could be found and unpacked, or the link made. -/
def HlinkDone (img : Image) (o : Outcomes) (ino : ℕ) : Prop :=
  o.find = true ∧ o.link = true ∧ ∃ b, img.hlinkBody ino = some b ∧
    (b.recordType = .dlink → DlinkDone img o b) ∧ (b.recordType = .file → BodyDone img o ino b)

/-- A sound hard link could be made. -/
lemma hlinkDone_of_sound {b : Record} (h : HlinkSound img o ino b) : HlinkDone img o ino :=
  ⟨h.find, h.link, b, h.body, fun htype => (h.dlink htype).done, fun htype => (h.file htype).2.1⟩

/-- **A hard link is sound if it could be made**, and its contents can be created. -/
lemma hlinkSound_of_done {x : Entry} (hdone : HlinkDone img o ino)
    (hx : img.hlinkEntry ino = some x) (hclean : x.Clean)
    (hdata : ∀ b, img.hlinkBody ino = some b → b.recordType = .dlink →
      b.dataInode ≠ 0 ∧ b.dataOffset < 2 ^ 63) : ∃ b, HlinkSound img o ino b := by
  obtain ⟨hfind, hlink, b, hbody, hdlink, hfile⟩ := hdone
  rw [Image.hlinkEntry, hbody, Option.bind_some] at hx
  refine ⟨b, hbody, fun htype => ?_, fun htype => ?_, hfind, hlink⟩
  · rw [if_pos htype] at hx
    obtain ⟨hinode, hoffset⟩ := hdata b hbody htype
    exact dlinkSound_of_done (hdlink htype) hx hclean hinode hoffset
  · rw [if_neg (by rw [htype]; decide), Image.fileEntry] at hx
    split_ifs at hx with hspecial
    · obtain rfl := Option.some.inj hx
      exact hclean.elim
    · exact ⟨Bool.eq_false_iff.2 hspecial, hfile htype, bodySound_of_done (hfile htype) hx hclean,
        x, hx⟩

/-- What is created for a hard link is no device, and a target ends before its first zero byte. -/
lemma createHlink_clean {x : Entry} (h : createHlink img o ino dl = some (ret, some x, dl')) :
    x.Clean := by
  rw [createHlink] at h
  cases hbody : if o.find then img.cattreeFind ino else none with
  | none =>
    simp only [hbody, Option.some.injEq, Prod.mk.injEq, reduceCtorEq, false_and, and_false] at h
  | some b =>
    simp only [hbody] at h
    obtain ⟨⟨code, entry, dl₁⟩, hcreate, h⟩ := Option.map_eq_some_iff.1 h
    have hentry : entry = some x := by
      simp only at h
      split_ifs at h <;> exact (Prod.mk.inj (Prod.mk.inj h).2).1
    subst hentry
    by_cases hdlink : b.recordType = .dlink
    · rw [if_pos hdlink] at hcreate
      exact processDlinkUnpack_clean hcreate
    · rw [if_neg hdlink] at hcreate
      obtain ⟨⟨code', e⟩, hcontents, heq⟩ := Option.map_eq_some_iff.1 hcreate
      simp only [Prod.mk.injEq] at heq
      obtain ⟨-, rfl, -⟩ := heq
      exact createContents_clean hcontents

/-- **A hard link gets the contents of its body.** -/
theorem createHlink_sound {b : Record} (hholds : dl.Holds img plain)
    (hsound : HlinkSound img o ino b)
    (hplain : b.recordType = .dlink → img.PlainData b → b.dataInode = plain)
    (h : createHlink img o ino dl = some (ret, entry, dl')) :
    (∃ x, img.hlinkEntry ino = some x ∧ entry = some x) ∧ dl'.Holds img plain := by
  obtain ⟨hfind, htype⟩ := Option.filter_eq_some_iff.1 hsound.body
  rw [createHlink] at h
  rw [if_pos hsound.find, hfind] at h
  obtain ⟨⟨code, e, dl₁⟩, hcreate, h⟩ := Option.map_eq_some_iff.1 h
  have hresult : entry = e ∧ dl' = dl₁ := by
    simp only at h
    split_ifs at h <;> simp only [Prod.mk.injEq] at h <;> exact ⟨h.2.1.symm, h.2.2.symm⟩
  obtain ⟨rfl, rfl⟩ := hresult
  rw [Image.hlinkEntry, hsound.body, Option.bind_some]
  by_cases hdlink : b.recordType = .dlink
  · rw [if_pos hdlink] at hcreate ⊢
    obtain ⟨-, rfl, hholds'⟩ := processDlinkUnpack_sound hholds (hsound.dlink hdlink)
      (hplain hdlink) hcreate
    obtain ⟨x, hx⟩ := (hsound.dlink hdlink).entry
    exact ⟨⟨x, hx, hx⟩, hholds'⟩
  · rw [if_neg hdlink] at hcreate ⊢
    have hfile : b.recordType = .file := by simpa [hdlink] using htype
    obtain ⟨hspecial, hdone, hbody, x, hx⟩ := hsound.file hfile
    obtain ⟨⟨code', e'⟩, hcontents, heq⟩ := Option.map_eq_some_iff.1 hcreate
    obtain rfl := createContents_done hdone hx hcontents
    simp only [Prod.mk.injEq] at heq
    obtain ⟨-, rfl, rfl⟩ := heq
    obtain ⟨⟨y, hy, rfl⟩, -⟩ := createContents_sound hbody hcontents
    refine ⟨⟨y, ?_, rfl⟩, hholds⟩
    rw [Image.fileEntry, if_neg (by simp [hspecial]), hy]

/-- A hard link that is created without an error has a name with which that can be done. -/
lemma createHlink_named {e : Entry} (h : createHlink img o ino dl = some (0, some e, dl')) :
    o.creat = true ∨ o.symlink = true ∨ o.openOut = true := by
  rw [createHlink] at h
  cases hbody : if o.find then img.cattreeFind ino else none with
  | none =>
    simp only [hbody, Option.some.injEq, Prod.mk.injEq, reduceCtorEq, false_and, and_false] at h
  | some b =>
    simp only [hbody] at h
    obtain ⟨⟨code, entry, dl₁⟩, hcreate, h⟩ := Option.map_eq_some_iff.1 h
    have hcode : code = 0 := by
      simp only at h
      split_ifs at h with hcode
      · exact absurd (Prod.mk.inj h).1 hcode
      · exact not_not.1 hcode
    subst hcode
    by_cases hdlink : b.recordType = .dlink
    · rw [if_pos hdlink] at hcreate
      exact Or.inr (processDlinkUnpack_isSome hcreate).2
    · rw [if_neg hdlink] at hcreate
      obtain ⟨⟨code', e'⟩, hcontents, heq⟩ := Option.map_eq_some_iff.1 hcreate
      simp only [Prod.mk.injEq] at heq
      obtain ⟨rfl, -, -⟩ := heq
      exact (createContents_isSome hcontents).2.imp_right Or.inl

end SamsungTVVoices.Extractor
