/-
What the installer receives from the extraction helper (`firmwareStore._receiveStream`).

The helper sends a TAR archive and no length.  `_receiveStream` takes the end of the connection for
the end of the archive, however it comes, if the last bytes that have arrived look like the end
marker of an archive.  The content of a member can look like it too.
-/
import SamsungTVVoices.Store.Download

namespace SamsungTVVoices.Store

/-! ### Receiving -/

/-- How a connection ends: with an empty read, or with one of the exceptions that are caught. -/
inductive StreamEnd where
  | closed | reset | aborted | brokenPipe | timeout
deriving DecidableEq, Repr

/-- Why `_receiveStream` raises. -/
inductive ReceiveError where
  | tooMuch | noData | incomplete
deriving DecidableEq, Repr

namespace ReceiveError

/-- The text of the error. -/
def message : ReceiveError → String
  | tooMuch => "The firmware extraction helper returned too much data."
  | noData => "The firmware extraction helper returned no speech data."
  | incomplete => "The firmware extraction helper disconnected before completing its TAR result."

/-- The error is an `_ExtractorDisconnected`, so the extraction is tried again. -/
def Disconnected : ReceiveError → Prop
  | tooMuch => False
  | noData | incomplete => True

end ReceiveError

/-- `_TAR_END_SIZE` -/
def tarEndSize : ℕ := 1024

/-- The variables of the loop, and what has been written to the destination. -/
structure Received where
  received : ℕ
  tail : Bytes
  output : Bytes
deriving DecidableEq, Repr

/-- The loop, over the chunks that `recv` returns. -/
def receiveLoop (maximumSize : ℕ) (ending : StreamEnd) :
    Received → List Bytes → Received × Option ReceiveError
  | s, [] =>
      match ending with
      | .closed | .reset | .aborted | .brokenPipe | .timeout => (s, none)
  | s, chunk :: chunks =>
      let received := s.received + chunk.length
      if maximumSize < received then ({ s with received := received }, some .tooMuch)
      else
        let tail := s.tail ++ chunk
        receiveLoop maximumSize ending
          { received := received
            tail := if tarEndSize < tail.length then tail.rtake tarEndSize else tail
            output := s.output ++ chunk } chunks

/-- `_receiveStream`: what is in the destination afterwards, and the error that is raised. -/
def receiveStream (maximumSize : ℕ) (incoming : Pieces UInt8) (ending : StreamEnd) :
    Bytes × Option ReceiveError :=
  match receiveLoop maximumSize ending ⟨0, [], []⟩ (readChunks incoming) with
  | (s, some e) => (s.output, some e)
  | (s, none) =>
      if s.received = 0 then (s.output, some .noData)
      else if s.tail.length < tarEndSize ∨ ∃ b ∈ s.tail, b ≠ 0 then (s.output, some .incomplete)
      else (s.output, none)

/-! ### What is received depends on the bytes only -/

/-- The variables after the bytes have arrived. -/
def Received.of (bs : Bytes) : Received := ⟨bs.length, bs.rtake tarEndSize, bs⟩

lemma rtake_eq_self {n : ℕ} {bs : Bytes} (h : bs.length ≤ n) : bs.rtake n = bs := by
  rw [List.rtake, Nat.sub_eq_zero_of_le h, List.drop_zero]

/-- The tail after a chunk is the tail of all that has arrived. -/
lemma tail_append (bs chunk : Bytes) :
    (if tarEndSize < (bs.rtake tarEndSize ++ chunk).length then
      (bs.rtake tarEndSize ++ chunk).rtake tarEndSize
    else bs.rtake tarEndSize ++ chunk) = (bs ++ chunk).rtake tarEndSize := by
  have hrtake : (bs.rtake tarEndSize ++ chunk).rtake tarEndSize =
      (bs ++ chunk).rtake tarEndSize := by
    refine rtake_of_suffix ?_ ?_
    · obtain ⟨front, hfront⟩ : bs.rtake tarEndSize <:+ bs := List.drop_suffix _ _
      exact ⟨front, by rw [← List.append_assoc, hfront]⟩
    · rw [List.length_append, List.length_append, length_rtake]
      omega
  split
  · exact hrtake
  · next h => rw [← rtake_eq_self (not_lt.1 h), hrtake]

lemma receiveLoop_eq (maximumSize : ℕ) (ending : StreamEnd) (chunks : List Bytes) (bs : Bytes)
    (h : (bs ++ chunks.flatten).length ≤ maximumSize) :
    receiveLoop maximumSize ending (.of bs) chunks = (.of (bs ++ chunks.flatten), none) := by
  induction chunks generalizing bs with
  | nil => cases ending <;> simp [receiveLoop]
  | cons chunk chunks ih =>
      rw [List.flatten_cons, ← List.append_assoc] at h ⊢
      have hle : bs.length + chunk.length ≤ maximumSize := by
        rw [List.length_append, List.length_append] at h
        omega
      rw [receiveLoop, Received.of]
      dsimp only
      rw [if_neg (not_lt.2 hle), tail_append, ← ih _ h, Received.of, List.length_append]

lemma receiveLoop_tooMuch (maximumSize : ℕ) (ending : StreamEnd) (chunks : List Bytes) (bs : Bytes)
    (hbs : bs.length ≤ maximumSize) (h : maximumSize < (bs ++ chunks.flatten).length) :
    (receiveLoop maximumSize ending (.of bs) chunks).2 = some .tooMuch := by
  induction chunks generalizing bs with
  | nil =>
      rw [List.flatten_nil, List.append_nil] at h
      omega
  | cons chunk chunks ih =>
      rw [List.flatten_cons, ← List.append_assoc] at h
      rw [receiveLoop, Received.of]
      dsimp only
      by_cases hlt : maximumSize < bs.length + chunk.length
      · rw [if_pos hlt]
      · rw [if_neg hlt, tail_append]
        have hle : (bs ++ chunk).length ≤ maximumSize := by
          rw [List.length_append]
          exact not_lt.1 hlt
        have hrest := ih _ hle h
        rwa [Received.of, List.length_append] at hrest

/-- The bytes end like an archive. -/
def EndsInZeros (bs : Bytes) : Prop := List.replicate tarEndSize 0 <:+ bs

instance (bs : Bytes) : Decidable (EndsInZeros bs) := inferInstanceAs (Decidable (_ <:+ _))

lemma endsInZeros_iff (bs : Bytes) : EndsInZeros bs ↔
    ¬ ((bs.rtake tarEndSize).length < tarEndSize ∨ ∃ b ∈ bs.rtake tarEndSize, b ≠ 0) := by
  have hle : (bs.rtake tarEndSize).length ≤ tarEndSize := by
    rw [length_rtake]
    exact min_le_left _ _
  rw [EndsInZeros, ← suffix_rtake_iff, List.length_replicate]
  constructor
  · intro hsuffix hshort
    have heq : List.replicate tarEndSize 0 = bs.rtake tarEndSize :=
      hsuffix.eq_of_length_le (by rwa [List.length_replicate])
    rcases hshort with hlt | ⟨b, hb, hne⟩
    · rw [← heq, List.length_replicate] at hlt
      exact lt_irrefl _ hlt
    · rw [← heq] at hb
      exact hne (List.eq_of_mem_replicate hb)
  · intro hzeros
    push Not at hzeros
    rw [List.eq_replicate_of_mem hzeros.2, hle.antisymm hzeros.1]

/-- **Reception.** What `_receiveStream` does depends on the bytes that arrive, and on nothing
else. -/
theorem receiveStream_eq (maximumSize : ℕ) (incoming : Pieces UInt8) (ending : StreamEnd)
    (h : incoming.content.length ≤ maximumSize) :
    receiveStream maximumSize incoming ending = (incoming.content,
      if incoming.content = [] then some .noData
      else if EndsInZeros incoming.content then none
      else some .incomplete) := by
  have hloop := receiveLoop_eq maximumSize ending (readChunks incoming) []
    (by rwa [List.nil_append, flatten_readChunks])
  rw [List.nil_append, flatten_readChunks] at hloop
  change receiveLoop maximumSize ending ⟨0, [], []⟩ (readChunks incoming) = _ at hloop
  rw [receiveStream, hloop]
  dsimp only [Received.of]
  by_cases hnil : incoming.content = []
  · simp only [hnil, List.length_nil, if_true]
  · have hlength : incoming.content.length ≠ 0 := by simpa using hnil
    have hiff := endsInZeros_iff incoming.content
    by_cases hzeros : EndsInZeros incoming.content
    · simp only [hnil, hlength, hzeros, hiff.1 hzeros, if_true, if_false]
    · simp only [hnil, hlength, hzeros, not_not.1 (mt hiff.2 hzeros), if_true, if_false]

lemma receiveStream_tooMuch (maximumSize : ℕ) (incoming : Pieces UInt8) (ending : StreamEnd)
    (h : maximumSize < incoming.content.length) :
    (receiveStream maximumSize incoming ending).2 = some .tooMuch := by
  have hloop := receiveLoop_tooMuch maximumSize ending (readChunks incoming) [] (Nat.zero_le _)
    (by rwa [List.nil_append, flatten_readChunks])
  change (receiveLoop maximumSize ending ⟨0, [], []⟩ (readChunks incoming)).2 = _ at hloop
  obtain ⟨s, hs⟩ : ∃ s, receiveLoop maximumSize ending ⟨0, [], []⟩ (readChunks incoming) =
      (s, some .tooMuch) := ⟨_, Prod.ext rfl hloop⟩
  rw [receiveStream, hs]

/-- The stream is within the limit, and its last bytes are zero. -/
def Complete (maximumSize : ℕ) (bs : Bytes) : Prop :=
  tarEndSize ≤ bs.length ∧ bs.length ≤ maximumSize ∧ ∀ b ∈ bs.rtake tarEndSize, b = 0

/-- Some of the first chunks are together longer than the limit. -/
def Exceeds (maximumSize : ℕ) (chunks : List Bytes) : Prop :=
  ∃ front, front <+: chunks ∧ maximumSize < front.flatten.length

/-- So are all of them then. -/
lemma exceeds_iff {maximumSize : ℕ} {chunks : List Bytes} :
    Exceeds maximumSize chunks ↔ maximumSize < chunks.flatten.length := by
  constructor
  · rintro ⟨front, ⟨rest, rfl⟩, hlt⟩
    rw [List.flatten_append, List.length_append]
    omega
  · intro hlt
    exact ⟨chunks, List.prefix_rfl, hlt⟩

lemma endsInZeros_iff_complete {maximumSize : ℕ} {bs : Bytes} (hle : bs.length ≤ maximumSize) :
    EndsInZeros bs ↔ Complete maximumSize bs := by
  rw [endsInZeros_iff, length_rtake, Complete]
  push Not
  constructor
  · rintro ⟨hlength, hzeros⟩
    exact ⟨by omega, hle, hzeros⟩
  · rintro ⟨hlength, -, hzeros⟩
    exact ⟨by omega, hzeros⟩

/-- What `_receiveStream` does, told by the bytes that arrive.  What a stream that is too long
leaves in the destination depends on the chunks, but nothing reads it. -/
structure ReceivedRight (maximumSize : ℕ) (incoming : Pieces UInt8) (ending : StreamEnd) :
    Prop where
  returns_iff : (receiveStream maximumSize incoming ending).2 = none ↔
    Complete maximumSize incoming.content
  destination : (receiveStream maximumSize incoming ending).2 = none →
    (receiveStream maximumSize incoming ending).1 = incoming.content
  tooMuch_iff : (receiveStream maximumSize incoming ending).2 = some .tooMuch ↔
    Exceeds maximumSize incoming.pieces
  /-- After these errors, and only after them, the extraction is tried again. -/
  disconnected_iff :
    (∃ e, (receiveStream maximumSize incoming ending).2 = some e ∧ e.Disconnected) ↔
      ¬ Complete maximumSize incoming.content ∧ ¬ Exceeds maximumSize incoming.pieces
  sameBytes : ∀ (other : Pieces UInt8) (ending' : StreamEnd), other.content = incoming.content →
    (receiveStream maximumSize other ending').2 = (receiveStream maximumSize incoming ending).2 ∧
      (¬ Exceeds maximumSize incoming.pieces →
        (receiveStream maximumSize other ending').1 =
          (receiveStream maximumSize incoming ending).1)

/-- A stream that is not too long. -/
lemma receivedRight_of_le {maximumSize : ℕ} {incoming : Pieces UInt8}
    (hle : incoming.content.length ≤ maximumSize) (ending : StreamEnd) :
    ReceivedRight maximumSize incoming ending := by
  have heq := receiveStream_eq maximumSize incoming ending hle
  have hzeros := endsInZeros_iff_complete hle
  have hfits : ¬ Exceeds maximumSize incoming.pieces := by
    rw [exceeds_iff]
    exact not_lt.2 hle
  have hnil : incoming.content = [] → ¬ Complete maximumSize incoming.content := by
    intro hnil hcomplete
    have hlength := hcomplete.1
    rw [hnil] at hlength
    exact absurd hlength (by decide)
  refine ⟨?_, ?_, ?_, ?_, ?_⟩
  · rw [heq]
    dsimp only
    split_ifs with h hend
    · exact iff_of_false id (hnil h)
    · exact iff_of_true rfl (hzeros.1 hend)
    · exact iff_of_false id fun hcomplete => hend (hzeros.2 hcomplete)
  · intro _
    rw [heq]
  · refine iff_of_false ?_ hfits
    rw [heq]
    dsimp only
    split_ifs <;> decide
  · rw [heq]
    dsimp only
    split_ifs with h hend
    · exact iff_of_true ⟨.noData, rfl, trivial⟩ ⟨hnil h, hfits⟩
    · refine iff_of_false ?_ fun hnot => hnot.1 (hzeros.1 hend)
      rintro ⟨e, he, -⟩
      cases he
    · exact iff_of_true ⟨.incomplete, rfl, trivial⟩
        ⟨fun hcomplete => hend (hzeros.2 hcomplete), hfits⟩
  · intro other ending' hother
    rw [heq, receiveStream_eq maximumSize other ending' (by rwa [hother]), hother]
    exact ⟨rfl, fun _ => rfl⟩

/-- A stream that is too long. -/
lemma receivedRight_of_lt {maximumSize : ℕ} {incoming : Pieces UInt8}
    (hlt : maximumSize < incoming.content.length) (ending : StreamEnd) :
    ReceivedRight maximumSize incoming ending := by
  have heq := receiveStream_tooMuch maximumSize incoming ending hlt
  have hexceeds : Exceeds maximumSize incoming.pieces := exceeds_iff.2 hlt
  refine ⟨?_, ?_, ?_, ?_, ?_⟩
  · rw [heq]
    exact iff_of_false (Option.some_ne_none _) fun hcomplete => absurd hcomplete.2.1 (not_le.2 hlt)
  · intro hnone
    rw [heq] at hnone
    cases hnone
  · exact iff_of_true heq hexceeds
  · refine iff_of_false ?_ fun hnot => hnot.2 hexceeds
    rintro ⟨e, he, hdisconnected⟩
    obtain rfl : ReceiveError.tooMuch = e := Option.some.inj (heq.symm.trans he)
    exact hdisconnected
  · intro other ending' hother
    refine ⟨?_, fun hfits => absurd hexceeds hfits⟩
    rw [heq, receiveStream_tooMuch maximumSize other ending' (by rwa [hother])]

/-- **Reception of a stream.** However the bytes are cut into chunks and however the stream ends,
`_receiveStream` returns for a stream within the limit that ends like an archive, and raises for
every other one. -/
theorem receivedRight (maximumSize : ℕ) (incoming : Pieces UInt8) (ending : StreamEnd) :
    ReceivedRight maximumSize incoming ending := by
  rcases le_or_gt incoming.content.length maximumSize with hle | hlt
  · exact receivedRight_of_le hle ending
  · exact receivedRight_of_lt hlt ending

/-! ### TAR archives -/

/-- The size of a block of an archive. -/
def tarBlockSize : ℕ := 512

/-- A member of an archive. -/
structure TarMember where
  header : Bytes
  data : Bytes
  length_header : header.length = tarBlockSize

/-- The member in the archive: the data are padded to whole blocks. -/
def TarMember.bytes (m : TarMember) : Bytes :=
  m.header ++ m.data ++
    List.replicate ((tarBlockSize - m.data.length % tarBlockSize) % tarBlockSize) 0

/-- An archive: the members, and at least two blocks of zeros. -/
structure TarArchive where
  members : List TarMember
  /-- The blocks of the end marker. -/
  endBlocks : ℕ
  two_le_endBlocks : 2 ≤ endBlocks

namespace TarArchive

/-- The members in the archive. -/
def body (archive : TarArchive) : Bytes := archive.members.flatMap TarMember.bytes

def bytes (archive : TarArchive) : Bytes :=
  archive.body ++ List.replicate (archive.endBlocks * tarBlockSize) 0

/-- Where the first two blocks of the end marker are complete. -/
def completeSize (archive : TarArchive) : ℕ := archive.body.length + 2 * tarBlockSize

lemma completeSize_le (archive : TarArchive) : archive.completeSize ≤ archive.bytes.length := by
  have hmul := Nat.mul_le_mul_right tarBlockSize archive.two_le_endBlocks
  rw [completeSize, bytes, List.length_append, List.length_replicate]
  omega

end TarArchive

/-! ### Truncated archives -/

/-- However the first `size` bytes of the archive arrive, they are rejected. -/
def RejectsTruncated (maximumSize : ℕ) (archive : TarArchive) (size : ℕ) : Prop :=
  ∀ (incoming : Pieces UInt8) (ending : StreamEnd), incoming.content = archive.bytes.take size →
    ∃ e, (receiveStream maximumSize incoming ending).2 = some e ∧ e.Disconnected

/-- **Truncated archives.** A truncated archive is rejected exactly if the bytes before the cut
are not all zero. -/
theorem rejectsTruncated_iff (maximumSize : ℕ) (archive : TarArchive)
    (hsize : archive.bytes.length ≤ maximumSize) (size : ℕ) (hcut : size < archive.completeSize) :
    RejectsTruncated maximumSize archive size ↔ ¬ EndsInZeros (archive.bytes.take size) := by
  have hle : (archive.bytes.take size).length ≤ maximumSize :=
    (List.length_take_le _ _).trans ((hcut.trans_le archive.completeSize_le).le.trans hsize)
  constructor
  · intro hrejects hzeros
    have hcontent := Pieces.content_whole (archive.bytes.take size)
    obtain ⟨e, he, -⟩ := hrejects _ .closed hcontent
    have hne : archive.bytes.take size ≠ [] := by
      intro hnil
      rw [hnil, EndsInZeros, List.suffix_nil, List.replicate_eq_nil_iff] at hzeros
      exact absurd hzeros (by decide)
    rw [receiveStream_eq _ _ _ (by rwa [hcontent]), hcontent] at he
    simp only [hne, hzeros, if_true, if_false] at he
    cases he
  · intro hzeros incoming ending hcontent
    rw [receiveStream_eq _ _ _ (by rwa [hcontent]), hcontent]
    by_cases hnil : archive.bytes.take size = []
    · exact ⟨.noData, by simp only [hnil, if_true], trivial⟩
    · exact ⟨.incomplete, by simp only [hnil, hzeros, if_false], trivial⟩

/-- A field of a header. -/
def headerField (text : String) (width : ℕ) : Bytes :=
  utf8 text ++ List.replicate (width - (utf8 text).length) 0

/-- A regular file with 1024 bytes of silence. -/
def silentMember : TarMember where
  header := headerField "pause.pcm" 100 ++ headerField "0000644" 8 ++ headerField "0000000" 8 ++
    headerField "0000000" 8 ++ headerField "00000002000" 12 ++ headerField "00000000000" 12 ++
    headerField "007553" 7 ++ utf8 " 0" ++ headerField "" 100 ++ headerField "ustar" 6 ++
    headerField "00" 249
  data := List.replicate 1024 0
  length_header := by decide +kernel

/-- The cut is in the file, and the header is among the last bytes. -/
theorem rejectsTruncated_silentMember :
    RejectsTruncated 4096 ⟨[silentMember], 2, le_rfl⟩ 1200 :=
  (rejectsTruncated_iff 4096 ⟨[silentMember], 2, le_rfl⟩ (by decide +kernel) 1200
    (by decide +kernel)).2 (by decide +kernel)

/-- The archive is cut where the file ends. -/
theorem not_rejectsTruncated_silentMember :
    ¬ ∀ (maximumSize : ℕ) (archive : TarArchive), archive.bytes.length ≤ maximumSize →
      ∀ size < archive.completeSize, RejectsTruncated maximumSize archive size := by
  intro h
  have hrejects := h 4096 ⟨[silentMember], 2, le_rfl⟩ (by decide +kernel) 1536 (by decide +kernel)
  obtain ⟨e, he, -⟩ := hrejects _ .reset (Pieces.content_whole _)
  have hnone : (receiveStream 4096 (.whole ((⟨[silentMember], 2, le_rfl⟩ : TarArchive).bytes.take
      1536)) .reset).2 = none := by
    decide +kernel
  rw [hnone] at he
  cases he

end SamsungTVVoices.Store
