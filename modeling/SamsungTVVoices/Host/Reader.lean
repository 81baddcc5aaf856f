/-
The thread that reads the guest's messages (`_SamsungHost._reader`).

The thread searches the stream byte by byte for the magic word, reads the rest of the header
and the payload, and puts the message on the queue.  The end of the stream and every error
end the thread with one last item whose type is `None`.

The main result is `reader_decodes`: whatever lies between the frames, as long as it does
not contain the magic word, and however the reads are cut, the queue receives exactly the
messages that were sent.  Two facts about the search carry it: the last four bytes are a
sufficient window (`suffix_rtake_iff`), and the magic word has no border, so that bytes
that look like its beginning never hide the real one (`suffix_iff_of_unbordered`).
-/
import SamsungTVVoices.Guest.Channel
import SamsungTVVoices.Lib.Stream

namespace SamsungTVVoices.Host

/-- `_MAGIC_BYTES`. -/
def magicBytes : Bytes := wordBytes samsungProtocolMagic

/-- `_MAX_PAYLOAD`, the largest payload that the driver accepts. -/
def maxPayload : ℕ := 8 <<< 20

/-- `_HEADER.size`. -/
def headerSize : ℕ := SamsungMessageHeader.byteSize

/-- An item of the message queue; the type `none` says that the helper is gone. -/
structure Message where
  messageType : Option UInt32
  generation : UInt32
  payload : Bytes
deriving DecidableEq, Repr

/-- The item that a frame becomes. -/
def Message.ofFrame (f : Frame) : Message := ⟨some f.type, f.generation, f.payload⟩

/-- The item that ends the queue when the stream ends. -/
def Message.stopped : Message :=
  ⟨none, 0, utf8 "The Samsung helper stopped unexpectedly."⟩

/-- The item that ends the queue after a header that cannot be right. -/
def Message.invalid : Message :=
  ⟨none, 0, utf8 "The Samsung helper returned an invalid message."⟩

/-! ### Exact reads -/

/-- The loop of `_readExact`; `none` is its `EOFError`. -/
def readExactLoop (size : ℕ) (data : Bytes) (stream : Pieces UInt8) :
    Option (Bytes × Pieces UInt8) :=
  if _h : data.length < size then
    let part := stream.read (size - data.length)
    if _hp : part.1 = [] then none
    else readExactLoop size (data ++ part.1) part.2
  else some (data, stream)
termination_by size - data.length
decreasing_by
  have : 0 < (stream.read (size - data.length)).1.length := List.length_pos_iff.2 _hp
  simp only [List.length_append]
  omega

/-- `_readExact`. -/
def readExact (stream : Pieces UInt8) (size : ℕ) : Option (Bytes × Pieces UInt8) :=
  readExactLoop size [] stream

/-- With enough bytes to come the loop returns what it has and the next bytes. -/
lemma readExactLoop_of_le {size : ℕ} {data : Bytes} {stream : Pieces UInt8}
    (hdata : data.length ≤ size) (h : size ≤ data.length + stream.content.length) :
    ∃ rest, readExactLoop size data stream =
        some (data ++ stream.content.take (size - data.length), rest) ∧
      rest.content = stream.content.drop (size - data.length) := by
  induction data, stream using readExactLoop.induct size with
  | case1 data stream hlt part hnil =>
      have hcontent := (stream.read_eq_nil_iff (Nat.sub_pos_of_lt hlt)).1 hnil
      simp [hcontent] at h
      omega
  | case2 data stream hlt part hne ih =>
      have hle : part.1.length ≤ size - data.length := stream.length_read_le _
      have happ : part.1 ++ part.2.content = stream.content := stream.read_append_content _
      have hlen : part.1.length + part.2.content.length = stream.content.length :=
        stream.length_content_read _
      obtain ⟨rest, hloop, hrest⟩ := ih (by rw [List.length_append]; omega)
        (by rw [List.length_append]; omega)
      have hsub : size - (data ++ part.1).length = size - data.length - part.1.length := by
        rw [List.length_append]
        omega
      refine ⟨rest, ?_, ?_⟩
      · rw [readExactLoop, dif_pos hlt]
        simp only
        rw [dif_neg hne, hloop, hsub, ← happ, List.take_append, List.take_of_length_le hle,
          List.append_assoc]
      · rw [hrest, hsub, ← happ, List.drop_append, List.drop_eq_nil_of_le hle, List.nil_append]
  | case3 data stream hlt =>
      have hsize : size - data.length = 0 := by omega
      exact ⟨stream, by rw [readExactLoop, dif_neg hlt, hsize]; simp, by simp [hsize]⟩

/-- With too few bytes to come the loop ends in `EOFError`. -/
lemma readExactLoop_of_lt {size : ℕ} {data : Bytes} {stream : Pieces UInt8}
    (h : data.length + stream.content.length < size) : readExactLoop size data stream = none := by
  induction data, stream using readExactLoop.induct size with
  | case1 data stream hlt part hnil =>
      rw [readExactLoop, dif_pos hlt]
      exact dif_pos hnil
  | case2 data stream hlt part hne ih =>
      have hlen : part.1.length + part.2.content.length = stream.content.length :=
        stream.length_content_read _
      rw [readExactLoop, dif_pos hlt]
      simp only
      rw [dif_neg hne]
      exact ih (by rw [List.length_append]; omega)
  | case3 data stream hlt => omega

lemma readExact_of_le (stream : Pieces UInt8) (size : ℕ) (h : size ≤ stream.content.length) :
    ∃ rest, readExact stream size = some (stream.content.take size, rest) ∧
      rest.content = stream.content.drop size := by
  have hnil : ([] : Bytes).length ≤ size := Nat.zero_le size
  simpa [readExact] using readExactLoop_of_le hnil (by simpa using h)

lemma readExact_of_lt {stream : Pieces UInt8} {size : ℕ} (h : stream.content.length < size) :
    readExact stream size = none :=
  readExactLoop_of_lt (by simpa using h)

/-- What an exact read returns was at the front of the stream. -/
lemma readExact_eq_some {stream rest : Pieces UInt8} {size : ℕ} {bs : Bytes}
    (h : readExact stream size = some (bs, rest)) :
    bs.length = size ∧ stream.content = bs ++ rest.content := by
  rcases lt_or_ge stream.content.length size with hlt | hle
  · rw [readExact_of_lt hlt] at h
    exact absurd h (by simp)
  · obtain ⟨rest', hread, hrest⟩ := readExact_of_le _ _ hle
    rw [hread, Option.some.injEq, Prod.mk.injEq] at h
    obtain ⟨rfl, rfl⟩ := h
    exact ⟨List.length_take_of_le hle, by rw [hrest, List.take_append_drop]⟩

/-! ### The search for a header -/

/-- The loop of `_readHeader`: read single bytes into `pre`, of which only the last four are
kept, until it ends with the magic word. -/
def readHeaderLoop (pre : Bytes) (stream : Pieces UInt8) : Option (Pieces UInt8) :=
  if magicBytes <:+ pre then some stream
  else
    match _h : readExact stream 1 with
    | none => none
    | some (b, rest) =>
        let pre' := pre ++ b
        readHeaderLoop (if magicBytes.length < pre'.length then pre'.rtake magicBytes.length
          else pre') rest
termination_by stream.content.length
decreasing_by
  have := readExact_eq_some _h
  rw [this.2, List.length_append, this.1]
  omega

/-- `_readHeader`. -/
def readHeader (stream : Pieces UInt8) : Option (Bytes × Pieces UInt8) :=
  (readHeaderLoop [] stream).bind fun rest =>
    (readExact rest (headerSize - magicBytes.length)).map fun r => (magicBytes ++ r.1, r.2)

lemma length_magicBytes : magicBytes.length = 4 := by simp [magicBytes]

lemma unbordered_magicBytes : Unbordered magicBytes := by
  intro b hne hpre hsuf
  have hlen := hpre.length_le
  obtain ⟨t, ht⟩ := hsuf
  rw [show magicBytes = [83, 77, 84, 86] from rfl] at *
  rw [List.prefix_iff_eq_take] at hpre
  have hb : b.length ≠ 0 := by simpa using hne
  rw [hpre] at ht
  have hl : b.length = 1 ∨ b.length = 2 ∨ b.length = 3 ∨ b.length = 4 := by
    simp only [List.length_cons, List.length_nil] at hlen
    omega
  rcases hl with hl | hl | hl | hl
  · have := congrArg List.getLast? ht
    simp [hl] at this
  · have := congrArg List.getLast? ht
    simp [hl] at this
  · have := congrArg List.getLast? ht
    simp [hl] at this
  · rw [hpre, hl]
    rfl

/-- The window that the loop keeps is the end of everything read so far. -/
lemma window_append (seen : Bytes) (b : UInt8) :
    (if magicBytes.length < (seen.rtake magicBytes.length ++ [b]).length then
        (seen.rtake magicBytes.length ++ [b]).rtake magicBytes.length
      else seen.rtake magicBytes.length ++ [b]) = (seen ++ [b]).rtake magicBytes.length := by
  split
  · exact rtake_append_singleton _ _ _
  · next h =>
      rw [← rtake_append_singleton]
      conv_rhs => rw [List.rtake, Nat.sub_eq_zero_of_le (not_lt.1 h), List.drop_zero]

/-- The loop stops right behind the first magic word.  `seen` is what has been read and
`todo` what is left of `g ++ magicBytes`. -/
lemma readHeaderLoop_of_garbage {g : Bytes} (hg : ¬ magicBytes <:+: g) (tail : Bytes) :
    ∀ (todo seen : Bytes) (stream : Pieces UInt8), g ++ magicBytes = seen ++ todo →
      stream.content = todo ++ tail →
      ∃ rest, readHeaderLoop (seen.rtake magicBytes.length) stream = some rest ∧
        rest.content = tail := by
  intro todo
  induction todo with
  | nil =>
      intro seen stream hsplit hcontent
      refine ⟨stream, ?_, by simpa using hcontent⟩
      rw [readHeaderLoop, if_pos]
      rw [suffix_rtake_iff, show seen = g ++ magicBytes by simpa using hsplit.symm]
      exact List.suffix_append _ _
  | cons b todo ih =>
      intro seen stream hsplit hcontent
      have hnot : ¬ magicBytes <:+ seen.rtake magicBytes.length := by
        rw [suffix_rtake_iff, suffix_iff_of_unbordered unbordered_magicBytes hg
          ⟨b :: todo, hsplit.symm⟩]
        intro heq
        rw [heq] at hsplit
        simp at hsplit
      obtain ⟨rest, hread, hrest⟩ := readExact_of_le stream 1
        (by rw [hcontent]; simp)
      rw [hcontent] at hread hrest
      simp only [List.cons_append, List.take_succ_cons, List.take_zero, List.drop_succ_cons,
        List.drop_zero] at hread hrest
      obtain ⟨rest', hloop, hrest'⟩ := ih (seen ++ [b]) rest (by simpa using hsplit) hrest
      refine ⟨rest', ?_, hrest'⟩
      rw [readHeaderLoop, if_neg hnot]
      split
      · next h =>
          rw [hread] at h
          exact absurd h (by simp)
      · next b' r h =>
          rw [hread, Option.some.injEq, Prod.mk.injEq] at h
          obtain ⟨rfl, rfl⟩ := h
          simp only
          rw [window_append, hloop]

/-- Without a magic word in the stream the loop runs into its end. -/
lemma readHeaderLoop_of_no_magic {g : Bytes} (hg : ¬ magicBytes <:+: g) :
    ∀ (todo seen : Bytes) (stream : Pieces UInt8), g = seen ++ todo → stream.content = todo →
      readHeaderLoop (seen.rtake magicBytes.length) stream = none := by
  intro todo
  induction todo with
  | nil =>
      intro seen stream hsplit hcontent
      have hnot : ¬ magicBytes <:+ seen.rtake magicBytes.length := by
        rw [suffix_rtake_iff]
        exact fun h => hg (h.isInfix.trans (hsplit ▸ (List.prefix_append seen []).isInfix))
      have hread : readExact stream 1 = none := readExact_of_lt (by simp [hcontent])
      rw [readHeaderLoop, if_neg hnot]
      split
      · rfl
      · next h =>
          rw [hread] at h
          exact absurd h (by simp)
  | cons b todo ih =>
      intro seen stream hsplit hcontent
      have hnot : ¬ magicBytes <:+ seen.rtake magicBytes.length := by
        rw [suffix_rtake_iff]
        exact fun h => hg (h.isInfix.trans (hsplit ▸ (List.prefix_append seen (b :: todo)).isInfix))
      obtain ⟨rest, hread, hrest⟩ := readExact_of_le stream 1
        (by simp [hcontent])
      rw [hcontent] at hread hrest
      simp only [List.take_succ_cons, List.take_zero, List.drop_succ_cons,
        List.drop_zero] at hread hrest
      rw [readHeaderLoop, if_neg hnot]
      split
      · rfl
      · next b' r h =>
          rw [hread, Option.some.injEq, Prod.mk.injEq] at h
          obtain ⟨rfl, rfl⟩ := h
          simp only
          rw [window_append, ih (seen ++ [b]) rest (by simpa using hsplit) hrest]

/-- What a header search takes off the stream. -/
lemma readHeaderLoop_length {pre : Bytes} {stream rest : Pieces UInt8}
    (h : readHeaderLoop pre stream = some rest) :
    rest.content.length ≤ stream.content.length := by
  induction pre, stream using readHeaderLoop.induct with
  | case1 pre stream hsuf =>
      rw [readHeaderLoop, if_pos hsuf, Option.some.injEq] at h
      rw [h]
  | case2 pre stream hsuf hread =>
      rw [readHeaderLoop, if_neg hsuf] at h
      split at h
      · exact absurd h (by simp)
      · next h' =>
          rw [hread] at h'
          exact absurd h' (by simp)
  | case3 pre stream hsuf b r hread pre' ih =>
      rw [readHeaderLoop, if_neg hsuf] at h
      split at h
      · exact absurd h (by simp)
      · next b' r' h' =>
          rw [hread, Option.some.injEq, Prod.mk.injEq] at h'
          obtain ⟨rfl, rfl⟩ := h'
          have hle := ih h
          rw [(readExact_eq_some hread).2, List.length_append]
          omega

lemma readHeader_length {stream rest : Pieces UInt8} {bs : Bytes}
    (h : readHeader stream = some (bs, rest)) :
    rest.content.length < stream.content.length := by
  obtain ⟨mid, hmid, h⟩ := Option.bind_eq_some_iff.1 h
  obtain ⟨r, hr, h⟩ := Option.map_eq_some_iff.1 h
  obtain ⟨-, rfl⟩ := Prod.mk.injEq _ _ _ _ ▸ h
  have hread := readExact_eq_some hr
  have hle := readHeaderLoop_length hmid
  have hmagic := length_magicBytes
  rw [hread.2, List.length_append, hread.1, headerSize, SamsungMessageHeader.byteSize] at hle
  omega

/-! ### The reader thread -/

/-- The payload that a header announces. -/
def readPayload (stream : Pieces UInt8) (size : ℕ) : Option (Bytes × Pieces UInt8) :=
  if size = 0 then some ([], stream) else readExact stream size

lemma readPayload_of_le (stream : Pieces UInt8) (size : ℕ) (h : size ≤ stream.content.length) :
    ∃ rest, readPayload stream size = some (stream.content.take size, rest) ∧
      rest.content = stream.content.drop size := by
  unfold readPayload
  split
  · next h0 => exact ⟨stream, by simp [h0], by simp [h0]⟩
  · exact readExact_of_le _ _ h

lemma readPayload_length {stream rest : Pieces UInt8} {size : ℕ} {bs : Bytes}
    (h : readPayload stream size = some (bs, rest)) :
    rest.content.length ≤ stream.content.length := by
  unfold readPayload at h
  split at h
  · obtain ⟨-, rfl⟩ := Prod.mk.injEq _ _ _ _ ▸ Option.some.inj h
    exact le_rfl
  · rw [(readExact_eq_some h).2, List.length_append]
    omega

/-- `_reader`: the items that the thread puts on the queue, in order.  `current` answers
`process is self._process`; while it holds, `_putMessage` retries until the queue takes the
item. -/
def reader (current : Bool) (stream : Pieces UInt8) : List Message :=
  if current then
    match _h : readHeader stream with
    | none => [Message.stopped]
    | some (bytes, rest) =>
        let header := SamsungMessageHeader.ofBytes bytes
        if header.magic ≠ samsungProtocolMagic ∨ maxPayload < header.size.toNat then
          [Message.invalid]
        else
          match _h' : readPayload rest header.size.toNat with
          | none => [Message.stopped]
          | some (payload, rest') =>
              ⟨some header.type, header.generation, payload⟩ :: reader current rest'
  else []
termination_by stream.content.length
decreasing_by
  have h₁ := readHeader_length _h
  have h₂ := readPayload_length _h'
  omega

lemma reader_of_header {stream rest : Pieces UInt8} {bytes : Bytes}
    (h : readHeader stream = some (bytes, rest)) :
    reader true stream =
      if (SamsungMessageHeader.ofBytes bytes).magic ≠ samsungProtocolMagic ∨
          maxPayload < (SamsungMessageHeader.ofBytes bytes).size.toNat then [Message.invalid]
      else match readPayload rest (SamsungMessageHeader.ofBytes bytes).size.toNat with
        | none => [Message.stopped]
        | some (payload, rest') =>
            ⟨some (SamsungMessageHeader.ofBytes bytes).type,
              (SamsungMessageHeader.ofBytes bytes).generation, payload⟩ :: reader true rest' := by
  rw [reader, if_pos rfl]
  split
  · next h' =>
      rw [h] at h'
      exact absurd h' (by simp)
  · next h' =>
      rw [h, Option.some.injEq, Prod.mk.injEq] at h'
      obtain ⟨rfl, rfl⟩ := h'
      refine if_congr Iff.rfl rfl ?_
      split
      · next h'' => rw [h'']
      · next h'' => rw [h'']

/-- The frame header starts with the magic word. -/
lemma header_toBytes_eq (f : Frame) :
    f.header.toBytes = magicBytes ++ f.header.toBytes.drop magicBytes.length := by
  rw [length_magicBytes]
  simp [SamsungMessageHeader.toBytes, Frame.header, magicBytes]

/-- The search finds the next frame behind any garbage without the magic word. -/
lemma readHeader_of_frame {g : Bytes} (hg : ¬ magicBytes <:+: g) (f : Frame) (tail : Bytes)
    {stream : Pieces UInt8} (hcontent : stream.content = g ++ f.toBytes ++ tail) :
    ∃ rest, readHeader stream = some (f.header.toBytes, rest) ∧
      rest.content = f.payload ++ tail := by
  set fields := f.header.toBytes.drop magicBytes.length with hfields
  have hsplit : f.header.toBytes = magicBytes ++ fields := header_toBytes_eq f
  have hlen : fields.length = headerSize - magicBytes.length := by
    rw [hfields, List.length_drop, SamsungMessageHeader.length_toBytes, headerSize]
  obtain ⟨mid, hmid, hmidc⟩ := readHeaderLoop_of_garbage hg (fields ++ f.payload ++ tail)
    (g ++ magicBytes) [] stream (by simp)
    (by rw [hcontent, Frame.toBytes, hsplit]; simp only [List.append_assoc])
  obtain ⟨rest, hread, hrest⟩ := readExact_of_le mid (headerSize - magicBytes.length)
    (by rw [hmidc, ← hlen, List.append_assoc, List.length_append]; omega)
  rw [hmidc, ← hlen, List.append_assoc, List.take_left' rfl] at hread
  rw [hmidc, ← hlen, List.append_assoc, List.drop_left' rfl] at hrest
  refine ⟨rest, ?_, hrest⟩
  have hstart : readHeaderLoop [] stream = some mid := by
    simpa [List.rtake] using hmid
  rw [readHeader, hstart, Option.bind_some, ← hlen, hread, Option.map_some, ← hsplit]

/-- One turn of the thread on a frame that the protocol allows. -/
lemma reader_of_frame {g : Bytes} (hg : ¬ magicBytes <:+: g) (f : Frame) (tail : Bytes)
    (hf : f.payload.length ≤ maxPayload) {stream : Pieces UInt8}
    (hcontent : stream.content = g ++ f.toBytes ++ tail) :
    ∃ rest, reader true stream = Message.ofFrame f :: reader true rest ∧
      rest.content = tail := by
  obtain ⟨mid, hheader, hmid⟩ := readHeader_of_frame hg f tail hcontent
  have hsize : f.header.size.toNat = f.payload.length := by
    have hmax : maxPayload < UInt32.size := by decide
    exact UInt32.toNat_ofNat_of_lt' (hf.trans_lt hmax)
  obtain ⟨rest, hpayload, hrest⟩ := readPayload_of_le mid f.payload.length
    (by rw [hmid, List.length_append]; omega)
  rw [hmid, List.take_left' rfl] at hpayload
  rw [hmid, List.drop_left' rfl] at hrest
  refine ⟨rest, ?_, hrest⟩
  have hok : ¬ (f.header.magic ≠ samsungProtocolMagic ∨ maxPayload < f.payload.length) :=
    not_or.2 ⟨not_not.2 rfl, not_lt.2 hf⟩
  rw [reader_of_header hheader, SamsungMessageHeader.ofBytes_toBytes, hsize, hpayload, if_neg hok]
  rfl

/-- The end of the stream is one item. -/
lemma reader_of_end {g : Bytes} (hg : ¬ magicBytes <:+: g) {stream : Pieces UInt8}
    (hcontent : stream.content = g) : reader true stream = [Message.stopped] := by
  have hnone : readHeader stream = none := by
    have hloop : readHeaderLoop [] stream = none := by
      simpa [List.rtake] using readHeaderLoop_of_no_magic hg g [] stream (by simp) hcontent
    rw [readHeader, hloop, Option.bind_none]
  rw [reader, if_pos rfl]
  split
  · rfl
  · next h =>
      rw [hnone] at h
      exact absurd h (by simp)

/-- The bytes of a stream that starts with the garbage `g` and has some garbage behind each
of its frames. -/
def noisyStream (g : Bytes) : List (Frame × Bytes) → Bytes
  | [] => g
  | (f, g') :: ms => g ++ f.toBytes ++ noisyStream g' ms

/-- **Decoding with resynchronisation.**  Whatever garbage without the magic word lies
around the frames and however the reads are cut, the queue receives exactly the messages
that were sent, in order, and then one item for the end of the stream. -/
theorem reader_decodes (ms : List (Frame × Bytes)) (g : Bytes) (stream : Pieces UInt8)
    (hg : ¬ magicBytes <:+: g) (hms : ∀ m ∈ ms, ¬ magicBytes <:+: m.2)
    (hsize : ∀ m ∈ ms, m.1.payload.length ≤ maxPayload)
    (hstream : stream.content = noisyStream g ms) :
    reader true stream = ms.map (fun m => Message.ofFrame m.1) ++ [Message.stopped] := by
  induction ms generalizing g stream with
  | nil => exact reader_of_end hg hstream
  | cons m ms ih =>
      obtain ⟨f, g'⟩ := m
      obtain ⟨rest, hreader, hrest⟩ := reader_of_frame hg f (noisyStream g' ms)
        (hsize (f, g') List.mem_cons_self) hstream
      rw [hreader, ih g' rest (hms (f, g') List.mem_cons_self)
        (fun m hm => hms m (List.mem_cons_of_mem _ hm))
        (fun m hm => hsize m (List.mem_cons_of_mem _ hm)) hrest]
      rfl

/-- Garbage that ends in `SM`, and a payload that contains the magic word. -/
theorem reader_decodes_partial_magic :
    reader true (Pieces.whole (noisyStream [0, 83, 77]
        [(⟨102, 7, [83, 77, 84, 86]⟩, [83, 83]), (⟨103, 7, []⟩, [])])) =
      [⟨some 102, 7, [83, 77, 84, 86]⟩, ⟨some 103, 7, []⟩, Message.stopped] :=
  reader_decodes [(⟨102, 7, [83, 77, 84, 86]⟩, [83, 83]), (⟨103, 7, []⟩, [])] [0, 83, 77] _
    (by decide) (by decide) (by decide) (Pieces.content_whole _)

end SamsungTVVoices.Host
