/-
The conversation with the extraction helper (`firmwareStore._extractSpeechTarOnce`, `_readLine`,
`_receiveExact`, `_collectExtractorOutput`, `_extractSpeechTar`).

The helper is a virtual machine that is started for one extraction.  It answers with one line and,
if all is well, an archive.  The connection can break off anywhere; the installer then starts the
machine a second time, but only after the errors that say so (`HelperError.disconnected`).

Only the connection and the replies go wrong here: the writing of the destination never raises, nor
does `progress`.
-/
import SamsungTVVoices.Store.Receive
import SamsungTVVoices.Updater.Manifest
import SamsungTVVoices.Lib.Delimited

open FixedDigits
open SamsungTVVoices.Driver (CodePoint PyString isSpace strip)
open SamsungTVVoices.Updater (pyString)

namespace SamsungTVVoices.Store

/-! ### The status line -/

/-- An exception: its text, and whether it is an `_ExtractorDisconnected`. -/
structure HelperError where
  disconnected : Bool
  text : PyString
deriving DecidableEq, Repr

/-- The byte that ends a line. -/
def newline : UInt8 := 10

/-- `bytes.decode("ascii", "replace")` -/
def decodeAscii (bs : Bytes) : PyString :=
  bs.map fun b => if b < 0x80 then Fin.ofNat _ b.toNat else 0xFFFD

/-- The error when the connection ends in the status line. -/
def StreamEnd.statusError : StreamEnd → HelperError
  | timeout =>
      ⟨true, pyString "The firmware extraction helper timed out while waiting for its status."⟩
  | closed | reset | aborted | brokenPipe =>
      ⟨true, pyString "The firmware extraction helper disconnected before reporting its status."⟩

/-- The error when the status line is too long. -/
def invalidResponse : HelperError :=
  ⟨false, pyString "The firmware extraction helper returned an invalid response."⟩

/-- The loop of `_readLine`, with the number of bytes that `data` may still grow by. -/
def readLineLoop (ending : StreamEnd) :
    ℕ → Bytes → Pieces UInt8 → Except HelperError (PyString × Pieces UInt8)
  | 0, _, _ => .error invalidResponse
  | room + 1, data, stream =>
      let part := stream.read 1
      if part.1 = [] then .error ending.statusError
      else if part.1 = [newline] then .ok (decodeAscii data, part.2)
      else readLineLoop ending room (data ++ part.1) part.2

/-- `_readLine`, with what is left of the stream. -/
def readLine (limit : ℕ) (stream : Pieces UInt8) (ending : StreamEnd) :
    Except HelperError (PyString × Pieces UInt8) :=
  readLineLoop ending limit [] stream

/-! ### An archive of a known size -/

/-- The error when the connection ends in such an archive. -/
def incompleteResult : HelperError :=
  ⟨true, pyString "The firmware extraction helper disconnected before completing its result."⟩

/-- The loop of `_receiveExact`, on what has been written to the destination. -/
def receiveExactLoop (size : ℕ) (output : Bytes) (stream : Pieces UInt8) :
    Bytes × Option HelperError :=
  if _hlt : output.length < size then
    let chunk := stream.read (min (1024 * 1024) (size - output.length))
    if _hnil : chunk.1 = [] then (output, some incompleteResult)
    else receiveExactLoop size (output ++ chunk.1) chunk.2
  else (output, none)
termination_by size - output.length
decreasing_by
  have hpos : 0 < (stream.read (min (1024 * 1024) (size - output.length))).1.length :=
    List.length_pos_iff.2 _hnil
  simp only [List.length_append]
  omega

/-- `_receiveExact`: what is in the destination afterwards, and the error that is raised. -/
def receiveExact (size : ℕ) (stream : Pieces UInt8) : Bytes × Option HelperError :=
  receiveExactLoop size [] stream

/-! ### The header -/

/-- `str.split()` -/
def splitWords (s : PyString) : List PyString := (s.splitOnP isSpace).filter (· ≠ [])

/-- The value of a decimal digit. -/
def digitValue (c : CodePoint) : Option ℕ :=
  if 0x30 ≤ c.val ∧ c.val ≤ 0x39 then some (c.val - 0x30) else none

/-- The digits of `int`: single underscores may stand between them. -/
def parseDigits (s : PyString) : Option ℕ := do
  let groups := s.splitOn 0x5F
  if [] ∈ groups then none
  else
    let digits ← groups.flatten.mapM digitValue
    return Nat.ofDigits 10 digits.reverse

/-- `int` of a word of ASCII characters and replacement characters; none is a `ValueError`. -/
def parseInt : PyString → Option ℤ
  | [] => none
  | c :: s =>
      if c = 0x2D then (parseDigits s).map fun n => -(n : ℤ)
      else if c = 0x2B then (parseDigits s).map Int.ofNat
      else (parseDigits (c :: s)).map Int.ofNat

/-- A character of such a word in `repr`, between the given quotes. -/
def reprPoint (quote c : CodePoint) : PyString :=
  if c = 0x5C ∨ c = quote then [0x5C, c]
  else if c = 0x09 then pyString "\\t"
  else if c = 0x0A then pyString "\\n"
  else if c = 0x0D then pyString "\\r"
  else if c.val < 0x20 ∨ c.val = 0x7F then
    pyString "\\x" ++ (hexField 2 c.val).map fun b => Fin.ofNat _ b.toNat
  else [c]

/-- `repr` of such a word. -/
def reprWord (s : PyString) : PyString :=
  let quote : CodePoint := if 0x27 ∈ s ∧ 0x22 ∉ s then 0x22 else 0x27
  [quote] ++ s.flatMap (reprPoint quote) ++ [quote]

/-- The line of an archive without a size. -/
def streamLine : PyString := pyString "SAMSUNG_TTS_TAR_STREAM"

/-- The limit on the size of the archive. -/
def maximumTarSize : ℕ := 512 * 1024 * 1024

/-- The size in the header of an archive of a known size.  The message of the `ValueError` has at
most 200 characters of the word. -/
def headerSize (line : PyString) : Except HelperError ℕ :=
  match splitWords line with
  | [first, second] =>
      if first ≠ pyString "SAMSUNG_TTS_TAR" then
        .error ⟨false, pyString "The firmware extraction helper returned an invalid header."⟩
      else
        match parseInt second with
        | none =>
            .error ⟨false,
              pyString "invalid literal for int() with base 10: " ++ (reprWord second).take 200⟩
        | some size =>
            if size ≤ 0 ∨ maximumTarSize < size then
              .error ⟨false,
                pyString "The firmware extraction helper returned an invalid result size."⟩
            else .ok size.toNat
  | _ => .error ⟨false, pyString "The firmware extraction helper returned an invalid header."⟩

/-! ### One attempt -/

/-- The values of `stage`. -/
inductive HelperStage where
  | connecting | awaiting | receiving
deriving DecidableEq, Repr

/-- The value as the source writes it. -/
def HelperStage.text : HelperStage → String
  | connecting => "connecting to helper"
  | awaiting => "awaiting guest status"
  | receiving => "receiving speech files"

/-- The exception that `_receiveStream` raises. -/
def ReceiveError.toHelperError (e : ReceiveError) : HelperError :=
  ⟨match e with
    | tooMuch => false
    | noData | incomplete => true,
    pyString e.message⟩

/-- The `try` block of `_extractSpeechTarOnce` from the connection on: the destination afterwards,
and `failure` with the stage in which it was raised. -/
def converse (stream : Pieces UInt8) (ending : StreamEnd) (destination : Option Bytes) :
    Option Bytes × Option (HelperStage × HelperError) :=
  match readLine 4096 stream ending with
  | .error e => (destination, some (.awaiting, e))
  | .ok (line, rest) =>
      if pyString "ERROR " <+: line then
        let detail := line.drop 6
        (destination, some (.awaiting, ⟨false,
          if detail = [] then pyString "The firmware extraction helper failed." else detail⟩))
      else if line = streamLine then
        let result := receiveStream maximumTarSize rest ending
        (some result.1, result.2.map fun e => (.receiving, e.toHelperError))
      else
        match headerSize line with
        | .error e => (destination, some (.receiving, e))
        | .ok size =>
            let result := receiveExact size rest
            (some result.1, result.2.map (.receiving, ·))

/-- A round of the loop that connects: the process has ended, or `create_connection` raises or
returns. -/
inductive ConnectTry where
  | exited | refused | connected
deriving DecidableEq, Repr

/-- The loop that connects, over its rounds before the deadline. -/
def connectLoop : List ConnectTry → Bool
  | [] => false
  | .exited :: _ => false
  | .refused :: tries => connectLoop tries
  | .connected :: _ => true

/-- What an attempt meets. -/
structure HelperRun where
  tries : List ConnectTry
  stream : Pieces UInt8
  ending : StreamEnd
  /-- What `stream.read(4096)` returns for the console of the machine. -/
  console : List Bytes
  /-- `process.poll()` at the end. -/
  exitCode : Option ℤ
  /-- The time that `%.1f` writes, in tenths of a second. -/
  elapsed : ℕ

/-- `_EXTRACTOR_DIAGNOSTIC_LIMIT` -/
def extractorDiagnosticLimit : ℕ := 8192

/-- `_collectExtractorOutput` -/
def collectExtractorOutput (chunks : List Bytes) : Bytes :=
  chunks.foldl (fun output chunk => (output ++ chunk).rtake extractorDiagnosticLimit) []

/-- The length of the sequence that a lead byte announces, and the range of its second byte. -/
def leadByte (b : UInt8) : Option (ℕ × UInt8 × UInt8) :=
  if 0xC2 ≤ b ∧ b ≤ 0xDF then some (2, 0x80, 0xBF)
  else if b = 0xE0 then some (3, 0xA0, 0xBF)
  else if b = 0xED then some (3, 0x80, 0x9F)
  else if 0xE1 ≤ b ∧ b ≤ 0xEF then some (3, 0x80, 0xBF)
  else if b = 0xF0 then some (4, 0x90, 0xBF)
  else if b = 0xF4 then some (4, 0x80, 0x8F)
  else if 0xF1 ≤ b ∧ b ≤ 0xF3 then some (4, 0x80, 0xBF)
  else none

/-- The first character of `bytes.decode("utf-8", "replace")` behind its lead byte, and how many of
the bytes that follow belong to it. -/
def decodeNext (b : UInt8) (rest : Bytes) : CodePoint × ℕ :=
  if b < 0x80 then (Fin.ofNat _ b.toNat, 0)
  else
    match leadByte b with
    | none => (0xFFFD, 0)
    | some (n, low, high) =>
        -- the bytes up to the first that cannot continue the sequence
        let first := (rest.take 1).filter fun c => low ≤ c && c ≤ high
        let tail := if first = [] then []
          else first ++ ((rest.drop 1).take (n - 2)).takeWhile fun c => 0x80 ≤ c && c ≤ 0xBF
        if tail.length = n - 1 then
          (Fin.ofNat _ (tail.foldl (fun p c => p * 64 + (c.toNat - 0x80))
            (b.toNat % 2 ^ (7 - n))), n - 1)
        else (0xFFFD, tail.length)

/-- The loop of the decoder. -/
def decodeLoop : ℕ → Bytes → PyString
  | 0, _ | _, [] => []
  | n + 1, b :: rest =>
      let next := decodeNext b rest
      next.1 :: decodeLoop n (rest.drop next.2)

/-- `bytes.decode("utf-8", "replace")` -/
def decodeReplace (bs : Bytes) : PyString := decodeLoop bs.length bs

/-- What the message of a failure says about the process. -/
def processState : Option ℤ → PyString
  | none => pyString "still running when the failure occurred"
  | some code =>
      pyString s!"exited with code {code} (0x" ++
        (hexField 8 (code % 2 ^ 32).toNat).map (fun b =>
          Fin.ofNat _ (if 0x61 ≤ b then b - 0x20 else b).toNat) ++ pyString ")"

/-- The message of a failure. -/
def failureMessage (a : HelperRun) (stage : HelperStage) (e : HelperError) : PyString :=
  let detail := strip (decodeReplace (collectExtractorOutput a.console))
  e.text ++ pyString s!" Stage: {stage.text}; elapsed: {a.elapsed / 10}.{a.elapsed % 10} s; helper " ++
    processState a.exitCode ++ pyString ". Helper details: " ++
    (if detail = [] then pyString "No guest diagnostic output was received." else detail)

/-- `_extractSpeechTarOnce`: the destination afterwards, and the error that is raised. -/
def extractSpeechTarOnce (a : HelperRun) (destination : Option Bytes) :
    Option Bytes × Option HelperError :=
  let result :=
    if connectLoop a.tries then converse a.stream a.ending destination
    else (destination, some (.connecting,
      ⟨true, pyString "The firmware extraction helper could not be reached."⟩))
  (result.1, result.2.map fun failure =>
    ⟨failure.2.disconnected, failureMessage a failure.1 failure.2⟩)

/-! ### Two attempts -/

/-- `_EXTRACTOR_ATTEMPTS` -/
def extractorAttempts : ℕ := 2

/-- The last error of `_extractSpeechTar`. -/
def disconnectedTwice (lastError : PyString) : HelperError :=
  ⟨false, pyString ("The firmware extraction helper disconnected twice before completing. " ++
    "The verified Samsung download has been retained, so trying again will not download it " ++
    "again. Please include the complete NVDA log when reporting this failure. " ++
    "Last helper error: ") ++ lastError⟩

section Attempts

variable (attempts : ℕ → HelperRun) (removes : ℕ → Bool)

/-- The loop of `_extractSpeechTar`, with the number of attempts that are left and the number of
the next one.  `removes` says whether the destination can be removed after an attempt. -/
def attemptLoop : ℕ → ℕ → PyString → Option Bytes → Option Bytes × Option HelperError
  | 0, _, lastError, destination => (destination, some (disconnectedTwice lastError))
  | left + 1, attempt, _, destination =>
      match extractSpeechTarOnce (attempts attempt) destination with
      | (after, none) => (after, none)
      | (after, some e) =>
          if e.disconnected then
            attemptLoop left (attempt + 1) e.text (if removes attempt then none else after)
          else (after, some e)

/-- `_extractSpeechTar`: the destination afterwards, and the error that is raised. -/
def extractSpeechTar (destination : Option Bytes) : Option Bytes × Option HelperError :=
  attemptLoop attempts removes extractorAttempts 0 (pyString "None") destination

end Attempts

/-! ### What is read of the bytes -/

/-- A read of a single byte. -/
lemma read_one {stream : Pieces UInt8} {b : UInt8} {bs : Bytes} (h : stream.content = b :: bs) :
    (stream.read 1).1 = [b] ∧ (stream.read 1).2.content = bs := by
  have happend := stream.read_append_content 1
  have hle := stream.length_read_le 1
  have hne : (stream.read 1).1 ≠ [] := by
    intro hnil
    rw [stream.read_eq_nil_iff one_pos, h] at hnil
    cases hnil
  obtain ⟨c, hc⟩ : ∃ c, (stream.read 1).1 = [c] :=
    List.length_eq_one_iff.1 (by have := List.length_pos_iff.2 hne; omega)
  rw [hc, h, List.singleton_append, List.cons.injEq] at happend
  exact ⟨by rw [hc, happend.1], happend.2⟩

lemma read_one_of_nil {stream : Pieces UInt8} (h : stream.content = []) :
    (stream.read 1).1 = [] :=
  (stream.read_eq_nil_iff one_pos).2 h

/-- A line that ends in time. -/
lemma readLineLoop_of_line (ending : StreamEnd) {line tail : Bytes} (hline : newline ∉ line) :
    ∀ {room : ℕ} (data : Bytes) {stream : Pieces UInt8},
      stream.content = line ++ newline :: tail → line.length < room →
      ∃ rest, readLineLoop ending room data stream = .ok (decodeAscii (data ++ line), rest) ∧
        rest.content = tail := by
  induction line with
  | nil =>
      intro room data stream hcontent hroom
      obtain ⟨room, rfl⟩ := Nat.exists_eq_succ_of_ne_zero hroom.ne'
      obtain ⟨hread, hrest⟩ := read_one hcontent
      refine ⟨_, ?_, hrest⟩
      rw [readLineLoop, hread, if_neg (List.cons_ne_nil _ _), if_pos rfl, List.append_nil]
  | cons b line ih =>
      intro room data stream hcontent hroom
      obtain ⟨room, rfl⟩ := Nat.exists_eq_succ_of_ne_zero (Nat.ne_zero_of_lt hroom)
      rw [List.mem_cons, not_or] at hline
      obtain ⟨hread, hrest⟩ := read_one hcontent
      obtain ⟨rest, hloop, htail⟩ := ih hline.2 (data ++ [b]) hrest
        (Nat.lt_of_succ_lt_succ hroom)
      refine ⟨rest, ?_, htail⟩
      have hne : ¬ [b] = [newline] := fun h => hline.1 (List.head_eq_of_cons_eq h).symm
      rw [readLineLoop, hread, if_neg (List.cons_ne_nil _ _), if_neg hne, hloop,
        List.append_assoc, List.singleton_append]

/-- The stream ends before the line does. -/
lemma readLineLoop_of_short {ending : StreamEnd} {bs : Bytes} (hbs : newline ∉ bs) :
    ∀ {room : ℕ} {data : Bytes} {stream : Pieces UInt8}, stream.content = bs → bs.length < room →
      readLineLoop ending room data stream = .error ending.statusError := by
  induction bs with
  | nil =>
      intro room data stream hcontent hroom
      obtain ⟨room, rfl⟩ := Nat.exists_eq_succ_of_ne_zero hroom.ne'
      rw [readLineLoop, if_pos (read_one_of_nil hcontent)]
  | cons b bs ih =>
      intro room data stream hcontent hroom
      obtain ⟨room, rfl⟩ := Nat.exists_eq_succ_of_ne_zero (Nat.ne_zero_of_lt hroom)
      rw [List.mem_cons, not_or] at hbs
      obtain ⟨hread, hrest⟩ := read_one hcontent
      have hne : ¬ [b] = [newline] := fun h => hbs.1 (List.head_eq_of_cons_eq h).symm
      rw [readLineLoop, hread, if_neg (List.cons_ne_nil _ _), if_neg hne,
        ih hbs.2 hrest (Nat.lt_of_succ_lt_succ hroom)]

/-- The line is too long. -/
lemma readLineLoop_of_long (ending : StreamEnd) {front : Bytes} (hfront : newline ∉ front) :
    ∀ (data : Bytes) {tail : Bytes} {stream : Pieces UInt8}, stream.content = front ++ tail →
      readLineLoop ending front.length data stream = .error invalidResponse := by
  induction front with
  | nil =>
      intro data tail stream _
      rw [List.length_nil, readLineLoop]
  | cons b front ih =>
      intro data tail stream hcontent
      rw [List.mem_cons, not_or] at hfront
      obtain ⟨hread, hrest⟩ := read_one hcontent
      have hne : ¬ [b] = [newline] := fun h => hfront.1 (List.head_eq_of_cons_eq h).symm
      rw [List.length_cons, readLineLoop, hread, if_neg (List.cons_ne_nil _ _), if_neg hne,
        ih hfront.2 _ hrest]

/-- The bytes begin with a line that is short enough. -/
def BeginsWith (limit : ℕ) (bs line tail : Bytes) : Prop :=
  bs = line ++ newline :: tail ∧ newline ∉ line ∧ line.length < limit

lemma readLine_of_beginsWith {limit : ℕ} {stream : Pieces UInt8} {line tail : Bytes}
    (h : BeginsWith limit stream.content line tail) (ending : StreamEnd) :
    ∃ rest, readLine limit stream ending = .ok (decodeAscii line, rest) ∧ rest.content = tail := by
  obtain ⟨hcontent, hline, hlt⟩ := h
  obtain ⟨rest, hloop, hrest⟩ := readLineLoop_of_line ending hline [] hcontent hlt
  exact ⟨rest, by rw [readLine, hloop, List.nil_append], hrest⟩

/-- Every other stream is an error. -/
lemma readLine_error {limit : ℕ} {stream : Pieces UInt8}
    (h : ∀ line tail, ¬ BeginsWith limit stream.content line tail) (ending : StreamEnd) :
    readLine limit stream ending =
      .error (if stream.content.length < limit then ending.statusError else invalidResponse) := by
  have hfront : newline ∉ stream.content.take limit := by
    intro hmem
    obtain ⟨line, tail, htake, hline⟩ := List.eq_append_cons_of_mem hmem
    have hlength := congrArg List.length htake
    rw [List.length_take, List.length_append, List.length_cons] at hlength
    refine h line (tail ++ stream.content.drop limit) ⟨?_, hline, by omega⟩
    rw [← List.cons_append, ← List.append_assoc, ← htake, List.take_append_drop]
  split
  · next hlt =>
      rw [List.take_of_length_le hlt.le] at hfront
      exact readLineLoop_of_short hfront rfl hlt
  · next hle =>
      have hlength : (stream.content.take limit).length = limit :=
        List.length_take_of_le (not_lt.1 hle)
      have hloop := readLineLoop_of_long ending hfront []
        (List.take_append_drop limit stream.content).symm
      rwa [hlength] at hloop

/-- Bytes begin with one line at most. -/
lemma BeginsWith.unique {limit : ℕ} {bs line tail line' tail' : Bytes}
    (h : BeginsWith limit bs line tail) (h' : BeginsWith limit bs line' tail') :
    line = line' ∧ tail = tail' := by
  have heq : line ++ newline :: tail = line' ++ newline :: tail' := h.1.symm.trans h'.1
  obtain ⟨hline, htail⟩ := Delimited.append_inj_of_run (p := (· ≠ newline))
    (fun c hc => ne_of_mem_of_not_mem hc h.2.1) (fun c hc => ne_of_mem_of_not_mem hc h'.2.1)
    (Delimited.notNext_cons.2 (not_not.2 rfl)) (Delimited.notNext_cons.2 (not_not.2 rfl)) heq
  exact ⟨hline, (List.cons.inj htail).2⟩

/-- `_receiveExact` stops behind the last byte that it wants. -/
lemma receiveExactLoop_eq {size : ℕ} {output : Bytes} {stream : Pieces UInt8}
    (hle : output.length ≤ size) :
    receiveExactLoop size output stream =
      if size ≤ (output ++ stream.content).length then
        ((output ++ stream.content).take size, none)
      else (output ++ stream.content, some incompleteResult) := by
  induction output, stream using receiveExactLoop.induct size with
  | case1 output stream hlt chunk hnil =>
      have hroom : 0 < min (1024 * 1024) (size - output.length) := by omega
      have hcontent : stream.content = [] := (stream.read_eq_nil_iff hroom).1 hnil
      rw [receiveExactLoop, dif_pos hlt]
      dsimp only
      rw [dif_pos hnil, hcontent, List.append_nil, if_neg (not_le.2 hlt)]
  | case2 output stream hlt chunk hne ih =>
      have happend : chunk.1 ++ chunk.2.content = stream.content := stream.read_append_content _
      have hchunk : chunk.1.length ≤ min (1024 * 1024) (size - output.length) :=
        stream.length_read_le _
      rw [receiveExactLoop, dif_pos hlt]
      dsimp only
      rw [dif_neg hne, ih (by rw [List.length_append]; omega), List.append_assoc, happend]
  | case3 output stream hnot =>
      have heq : output.length = size := by omega
      rw [receiveExactLoop, dif_neg hnot, if_pos (by rw [List.length_append]; omega), ← heq,
        List.take_left]

lemma receiveExact_eq (size : ℕ) (stream : Pieces UInt8) :
    receiveExact size stream =
      if size ≤ stream.content.length then (stream.content.take size, none)
      else (stream.content, some incompleteResult) := by
  rw [receiveExact, receiveExactLoop_eq (Nat.zero_le size), List.nil_append]

/-! ### The replies that are accepted -/

/-- The line of an error is no header. -/
lemma headerSize_error {line : PyString} (h : pyString "ERROR " <+: line) :
    ∃ e, headerSize line = .error e := by
  obtain ⟨detail, rfl⟩ := h
  have hspace : ∀ c ∈ pyString "ERROR", isSpace c = false := by
    have hall : (pyString "ERROR").all (fun c => !isSpace c) = true := by decide +kernel
    intro c hc
    simpa using List.all_eq_true.1 hall c hc
  have hwords : splitWords (pyString "ERROR " ++ detail) =
      pyString "ERROR" :: splitWords detail := by
    have hsplit : (pyString "ERROR " ++ detail).splitOnP isSpace =
        pyString "ERROR" :: detail.splitOnP isSpace :=
      List.splitOnP_append_cons_of_forall_mem hspace 0x20 (by decide) detail
    rw [splitWords, hsplit, List.filter_cons_of_pos (by decide), splitWords]
  rw [headerSize, hwords]
  split
  · next first second heq =>
      have hfirst : first = pyString "ERROR" := (List.head_eq_of_cons_eq heq).symm
      rw [if_pos (by rw [hfirst]; decide)]
      exact ⟨_, rfl⟩
  · exact ⟨_, rfl⟩

/-- A header that is wrong is no reason to try again. -/
lemma headerSize_connected {line : PyString} {e : HelperError} (h : headerSize line = .error e) :
    e.disconnected = false := by
  unfold headerSize at h
  split at h
  · split_ifs at h
    · cases h
      rfl
    · split at h
      · cases h
        rfl
      · split_ifs at h
        cases h
        rfl
  · cases h
    rfl

/-- Neither is the line of an archive without a size. -/
lemma headerSize_streamLine (size : ℕ) : headerSize streamLine ≠ .ok size := by
  have hwords : splitWords streamLine = [streamLine] := by decide +kernel
  rw [headerSize, hwords]
  intro h
  cases h

/-- The bytes are a reply that is accepted, with this archive. -/
def Accepted (bs archive : Bytes) : Prop :=
  ∃ line tail, BeginsWith 4096 bs line tail ∧
    (decodeAscii line = streamLine ∧ Complete maximumTarSize tail ∧ archive = tail ∨
      ∃ size, headerSize (decodeAscii line) = .ok size ∧ size ≤ tail.length ∧
        archive = tail.take size)

/-- The bytes may be the beginning of one: more of them could be accepted. -/
def Interrupted (bs : Bytes) : Prop :=
  (∀ line tail, ¬ BeginsWith 4096 bs line tail) ∧ bs.length < 4096 ∨
  ∃ line tail, BeginsWith 4096 bs line tail ∧
    (decodeAscii line = streamLine ∧ ¬ Complete maximumTarSize tail ∧
        tail.length ≤ maximumTarSize ∨
      ∃ size, headerSize (decodeAscii line) = .ok size ∧ tail.length < size)

section Line

variable {stream : Pieces UInt8} (ending : StreamEnd) (destination : Option Bytes)
  {line tail : Bytes} (hbegins : BeginsWith 4096 stream.content line tail)
include hbegins

/-- An archive without a size. -/
lemma converse_stream (hline : decodeAscii line = streamLine) :
    ∃ rest : Pieces UInt8, rest.content = tail ∧ converse stream ending destination =
      (some (receiveStream maximumTarSize rest ending).1,
        (receiveStream maximumTarSize rest ending).2.map fun e =>
          (.receiving, e.toHelperError)) := by
  obtain ⟨rest, hread, hrest⟩ := readLine_of_beginsWith hbegins ending
  refine ⟨rest, hrest, ?_⟩
  rw [converse, hread, hline]
  dsimp only
  rw [if_neg (by decide), if_pos rfl]

/-- An archive of a known size. -/
lemma converse_size {size : ℕ} (hsize : headerSize (decodeAscii line) = .ok size) :
    ∃ rest : Pieces UInt8, rest.content = tail ∧ converse stream ending destination =
      (some (receiveExact size rest).1, (receiveExact size rest).2.map (.receiving, ·)) := by
  obtain ⟨rest, hread, hrest⟩ := readLine_of_beginsWith hbegins ending
  have herror : ¬ pyString "ERROR " <+: decodeAscii line := by
    intro h
    obtain ⟨e, he⟩ := headerSize_error h
    rw [hsize] at he
    cases he
  have hstream : decodeAscii line ≠ streamLine := by
    intro h
    exact headerSize_streamLine size (h ▸ hsize)
  refine ⟨rest, hrest, ?_⟩
  rw [converse, hread]
  dsimp only
  rw [if_neg herror, if_neg hstream, hsize]

/-- Any other line. -/
lemma converse_other (hstream : decodeAscii line ≠ streamLine)
    (hsize : ∀ size, headerSize (decodeAscii line) ≠ .ok size) :
    ∃ stage e, converse stream ending destination = (destination, some (stage, e)) ∧
      e.disconnected = false := by
  obtain ⟨rest, hread, -⟩ := readLine_of_beginsWith hbegins ending
  rw [converse, hread]
  dsimp only
  by_cases herror : pyString "ERROR " <+: decodeAscii line
  · rw [if_pos herror]
    exact ⟨_, _, rfl, rfl⟩
  · rw [if_neg herror, if_neg hstream]
    split
    · next e he => exact ⟨_, e, rfl, headerSize_connected he⟩
    · next size he => exact absurd he (hsize size)

end Line

/-! ### What an attempt makes of the bytes -/

section Line

variable {bs line tail : Bytes} (archive : Bytes) (hbegins : BeginsWith 4096 bs line tail)
include hbegins

/-- A reply with the line is judged by its line and what follows. -/
lemma accepted_iff : Accepted bs archive ↔
    decodeAscii line = streamLine ∧ Complete maximumTarSize tail ∧ archive = tail ∨
      ∃ size, headerSize (decodeAscii line) = .ok size ∧ size ≤ tail.length ∧
        archive = tail.take size := by
  constructor
  · rintro ⟨line', tail', hbegins', hreply⟩
    obtain ⟨rfl, rfl⟩ := hbegins.unique hbegins'
    exact hreply
  · intro hreply
    exact ⟨line, tail, hbegins, hreply⟩

lemma interrupted_iff : Interrupted bs ↔
    decodeAscii line = streamLine ∧ ¬ Complete maximumTarSize tail ∧
        tail.length ≤ maximumTarSize ∨
      ∃ size, headerSize (decodeAscii line) = .ok size ∧ tail.length < size := by
  constructor
  · rintro (⟨hnone, -⟩ | ⟨line', tail', hbegins', hcut⟩)
    · exact absurd hbegins (hnone line tail)
    · obtain ⟨rfl, rfl⟩ := hbegins.unique hbegins'
      exact hcut
  · intro hcut
    exact Or.inr ⟨line, tail, hbegins, hcut⟩

/-- An archive without a size is complete, cut off or too long. -/
lemma replies_of_stream (hline : decodeAscii line = streamLine) :
    (Accepted bs archive ↔ Complete maximumTarSize tail ∧ archive = tail) ∧
      (Interrupted bs ↔ ¬ Complete maximumTarSize tail ∧ tail.length ≤ maximumTarSize) := by
  have hsize : ∀ size, headerSize (decodeAscii line) ≠ .ok size :=
    fun size => hline ▸ headerSize_streamLine size
  simp only [accepted_iff _ hbegins, interrupted_iff hbegins, hline, true_and, hline ▸ hsize,
    false_and, exists_false, or_false, and_self]

/-- An archive of a known size has all its bytes or not. -/
lemma replies_of_size {size : ℕ} (hsize : headerSize (decodeAscii line) = .ok size) :
    (Accepted bs archive ↔ size ≤ tail.length ∧ archive = tail.take size) ∧
      (Interrupted bs ↔ tail.length < size) := by
  have hline : decodeAscii line ≠ streamLine :=
    fun hline => headerSize_streamLine size (hline ▸ hsize)
  simp only [accepted_iff _ hbegins, interrupted_iff hbegins, hline, hsize, false_and, false_or,
    Except.ok.injEq, exists_eq_left', and_self]

/-- After any other line nothing is accepted. -/
lemma replies_of_other (hline : decodeAscii line ≠ streamLine)
    (hsize : ∀ size, headerSize (decodeAscii line) ≠ .ok size) :
    ¬ Accepted bs archive ∧ ¬ Interrupted bs := by
  simp only [accepted_iff _ hbegins, interrupted_iff hbegins, hline, hsize, false_and, exists_false,
    or_false, not_false_eq_true, and_self]

end Line

/-- What `_receiveStream` makes of the bytes. -/
lemma receiveStream_cases (maximumSize : ℕ) (incoming : Pieces UInt8) (ending : StreamEnd) :
    Complete maximumSize incoming.content ∧
        receiveStream maximumSize incoming ending = (incoming.content, none) ∨
      ∃ output e, receiveStream maximumSize incoming ending = (output, some e) ∧
        ¬ Complete maximumSize incoming.content ∧
        (e.toHelperError.disconnected = true ↔ incoming.content.length ≤ maximumSize) := by
  rcases le_or_gt incoming.content.length maximumSize with hle | hlt
  · have heq := receiveStream_eq maximumSize incoming ending hle
    have hzeros := endsInZeros_iff_complete hle
    by_cases hnil : incoming.content = []
    · refine Or.inr ⟨_, .noData, by rw [heq, if_pos hnil], fun hcomplete => ?_, ?_⟩
      · have hlength := hcomplete.1
        rw [hnil] at hlength
        exact absurd hlength (by decide)
      · exact iff_of_true rfl hle
    · rw [if_neg hnil] at heq
      by_cases hend : EndsInZeros incoming.content
      · exact Or.inl ⟨hzeros.1 hend, by rw [heq, if_pos hend]⟩
      · exact Or.inr ⟨_, .incomplete, by rw [heq, if_neg hend], mt hzeros.2 hend,
          iff_of_true rfl hle⟩
  · refine Or.inr ⟨_, .tooMuch, Prod.ext rfl (receiveStream_tooMuch maximumSize incoming ending hlt),
      fun hcomplete => absurd hcomplete.2.1 (not_le.2 hlt), iff_of_false Bool.false_ne_true
      (not_le.2 hlt)⟩

/-- The reply is accepted, or an error is raised that tells whether it was cut off. -/
def Judged (bs : Bytes) (result : Option Bytes × Option (HelperStage × HelperError)) : Prop :=
  (∃ archive, Accepted bs archive ∧ result = (some archive, none)) ∨
    ∃ after stage e, result = (after, some (stage, e)) ∧ (∀ archive, ¬ Accepted bs archive) ∧
      (e.disconnected = true ↔ Interrupted bs)

section Judged

variable {stream : Pieces UInt8} {ending : StreamEnd} {destination : Option Bytes}
  {line tail : Bytes}

lemma judged_stream (hbegins : BeginsWith 4096 stream.content line tail)
    (hline : decodeAscii line = streamLine) :
    Judged stream.content (converse stream ending destination) := by
  obtain ⟨rest, rfl, heq⟩ := converse_stream ending destination hbegins hline
  rw [heq]
  rcases receiveStream_cases maximumTarSize rest ending with
    ⟨hcomplete, hreceived⟩ | ⟨output, e, hreceived, hnot, hdisconnected⟩
  · rw [hreceived]
    exact Or.inl ⟨_, (replies_of_stream _ hbegins hline).1.2 ⟨hcomplete, rfl⟩, rfl⟩
  · rw [hreceived]
    refine Or.inr ⟨_, _, _, rfl, fun archive haccepted => ?_, ?_⟩
    · exact hnot ((replies_of_stream _ hbegins hline).1.1 haccepted).1
    · rw [hdisconnected, (replies_of_stream [] hbegins hline).2]
      exact (and_iff_right hnot).symm

lemma judged_size {size : ℕ} (hbegins : BeginsWith 4096 stream.content line tail)
    (hsize : headerSize (decodeAscii line) = .ok size) :
    Judged stream.content (converse stream ending destination) := by
  obtain ⟨rest, rfl, heq⟩ := converse_size ending destination hbegins hsize
  rw [heq, receiveExact_eq]
  by_cases hle : size ≤ rest.content.length
  · rw [if_pos hle]
    exact Or.inl ⟨_, (replies_of_size _ hbegins hsize).1.2 ⟨hle, rfl⟩, rfl⟩
  · rw [if_neg hle]
    refine Or.inr ⟨_, _, _, rfl, fun archive haccepted => ?_, ?_⟩
    · exact hle ((replies_of_size _ hbegins hsize).1.1 haccepted).1
    · rw [(replies_of_size [] hbegins hsize).2]
      exact iff_of_true rfl (not_le.1 hle)

lemma judged_other (hbegins : BeginsWith 4096 stream.content line tail)
    (hline : decodeAscii line ≠ streamLine)
    (hsize : ∀ size, headerSize (decodeAscii line) ≠ .ok size) :
    Judged stream.content (converse stream ending destination) := by
  obtain ⟨stage, e, heq, hconnected⟩ := converse_other ending destination hbegins hline hsize
  refine Or.inr ⟨_, stage, e, heq, fun archive => (replies_of_other _ hbegins hline hsize).1, ?_⟩
  rw [hconnected]
  exact iff_of_false Bool.false_ne_true (replies_of_other [] hbegins hline hsize).2

lemma judged_noLine (hnone : ∀ line tail, ¬ BeginsWith 4096 stream.content line tail) :
    Judged stream.content (converse stream ending destination) := by
  refine Or.inr ⟨destination, .awaiting, _, by rw [converse, readLine_error hnone], ?_, ?_⟩
  · rintro archive ⟨line, tail, hbegins, -⟩
    exact hnone line tail hbegins
  · have hcut : Interrupted stream.content ↔ stream.content.length < 4096 := by
      constructor
      · rintro (⟨-, hlt⟩ | ⟨line, tail, hbegins, -⟩)
        · exact hlt
        · exact absurd hbegins (hnone line tail)
      · intro hlt
        exact Or.inl ⟨hnone, hlt⟩
    rw [hcut]
    split
    · next hlt => exact iff_of_true (by cases ending <;> rfl) hlt
    · next hle => exact iff_of_false Bool.false_ne_true hle

/-- However the reply arrives, it is judged by its bytes. -/
lemma judged (stream : Pieces UInt8) (ending : StreamEnd) (destination : Option Bytes) :
    Judged stream.content (converse stream ending destination) := by
  by_cases hline : ∃ line tail, BeginsWith 4096 stream.content line tail
  · obtain ⟨line, tail, hbegins⟩ := hline
    by_cases hstream : decodeAscii line = streamLine
    · exact judged_stream hbegins hstream
    · by_cases hsize : ∃ size, headerSize (decodeAscii line) = .ok size
      · obtain ⟨size, hsize⟩ := hsize
        exact judged_size hbegins hsize
      · exact judged_other hbegins hstream (not_exists.1 hsize)
  · push Not at hline
    exact judged_noLine hline

end Judged

/-! ### What the attempts make of it -/

namespace HelperRun

variable (a : HelperRun)

/-- The attempt returns this archive. -/
def Delivers (archive : Bytes) : Prop :=
  connectLoop a.tries = true ∧ Accepted a.stream.content archive

/-- The attempt is cut off: the helper is not reached, or breaks off. -/
def CutOff : Prop := connectLoop a.tries = true → Interrupted a.stream.content

variable {a}

lemma Delivers.unique {archive archive' : Bytes} (h : a.Delivers archive)
    (h' : a.Delivers archive') : archive = archive' := by
  obtain ⟨line, tail, hbegins, hreply⟩ := h.2
  have hreply' := (accepted_iff _ hbegins).1 h'.2
  by_cases hline : decodeAscii line = streamLine
  · rw [((replies_of_stream _ hbegins hline).1.1 h.2).2,
      ((replies_of_stream _ hbegins hline).1.1 h'.2).2]
  · rcases hreply with ⟨hstream, -⟩ | ⟨size, hsize, -, rfl⟩
    · exact absurd hstream hline
    · exact ((replies_of_size _ hbegins hsize).1.1 h'.2).2.symm

lemma Delivers.not_cutOff {archive : Bytes} (h : a.Delivers archive) : ¬ a.CutOff := by
  intro hcut
  obtain ⟨line, tail, hbegins, hreply⟩ := h.2
  rcases hreply with ⟨hline, -⟩ | ⟨size, hsize, -⟩
  · obtain ⟨haccepted, hinterrupted⟩ := replies_of_stream archive hbegins hline
    exact (hinterrupted.1 (hcut h.1)).1 (haccepted.1 h.2).1
  · obtain ⟨haccepted, hinterrupted⟩ := replies_of_size archive hbegins hsize
    exact absurd (haccepted.1 h.2).1 (not_le.2 (hinterrupted.1 (hcut h.1)))

end HelperRun

/-- An attempt returns, or it raises and is tried again if it is cut off. -/
lemma extractSpeechTarOnce_cases (a : HelperRun) (destination : Option Bytes) :
    (∃ archive, a.Delivers archive ∧
        extractSpeechTarOnce a destination = (some archive, none)) ∨
      ∃ after e, extractSpeechTarOnce a destination = (after, some e) ∧
        (∀ archive, ¬ a.Delivers archive) ∧ (e.disconnected = true ↔ a.CutOff) := by
  rw [extractSpeechTarOnce]
  by_cases hconnected : connectLoop a.tries = true
  · rw [if_pos hconnected]
    rcases judged a.stream a.ending destination with
      ⟨archive, haccepted, heq⟩ | ⟨after, stage, e, heq, hnot, hdisconnected⟩
    · exact Or.inl ⟨archive, ⟨hconnected, haccepted⟩, by rw [heq]; rfl⟩
    · refine Or.inr ⟨_, _, by rw [heq]; rfl, fun archive h => hnot archive h.2, ?_⟩
      rw [hdisconnected, HelperRun.CutOff, forall_prop_of_true hconnected]
  · rw [if_neg hconnected]
    exact Or.inr ⟨_, _, rfl, fun archive h => hconnected h.1,
      iff_of_true rfl fun h => absurd h hconnected⟩

/-- How a run of attempts ends: with the archive of one attempt, with the error of one attempt, or
because all of them are cut off. -/
structure ExtractsRight (attempts : ℕ → HelperRun) (removes : ℕ → Bool) (first left : ℕ)
    (result : Option Bytes × Option HelperError) : Prop where
  returns_iff : result.2 = none ↔ ∃ i < left, (∃ archive, (attempts (first + i)).Delivers archive) ∧
    ∀ j < i, (attempts (first + j)).CutOff
  /-- The destination holds the archive of that attempt, and nothing of those before. -/
  destination : ∀ i < left, ∀ archive, (attempts (first + i)).Delivers archive →
    (∀ j < i, (attempts (first + j)).CutOff) → result.1 = some archive
  /-- An error of the helper is raised as it is, and not tried again. -/
  raises : ∀ i < left, (∀ archive, ¬ (attempts (first + i)).Delivers archive) →
    ¬ (attempts (first + i)).CutOff → (∀ j < i, (attempts (first + j)).CutOff) →
    ∃ before, result = extractSpeechTarOnce (attempts (first + i)) before
  gives_up : (∀ i < left, (attempts (first + i)).CutOff) →
    ∃ lastError, result.2 = some (disconnectedTwice lastError)
  removed : 0 < left → (∀ i < left, (attempts (first + i)).CutOff) →
    removes (first + (left - 1)) = true → result.1 = none

section Attempts

variable {attempts : ℕ → HelperRun} {removes : ℕ → Bool} {first left : ℕ}
  {result : Option Bytes × Option HelperError}

/-- The first attempt is the last one if it is not cut off. -/
lemma eq_zero_of_not_cutOff {i : ℕ} (hcut : ¬ (attempts first).CutOff)
    (h : ∀ j < i, (attempts (first + j)).CutOff) : i = 0 := by
  by_contra hne
  exact hcut (h 0 (Nat.pos_of_ne_zero hne))

/-- The first attempt returns. -/
lemma extractsRight_of_delivers {archive : Bytes} (h : (attempts first).Delivers archive) :
    ExtractsRight attempts removes first (left + 1) (some archive, none) := by
  refine ⟨?_, ?_, ?_, ?_, ?_⟩
  · exact iff_of_true rfl ⟨0, Nat.succ_pos left, ⟨archive, h⟩,
      fun j hj => absurd hj (Nat.not_lt_zero j)⟩
  · intro i _ archive' h' hbefore
    obtain rfl := eq_zero_of_not_cutOff h.not_cutOff hbefore
    rw [h.unique h']
  · intro i _ hnot _ hbefore
    obtain rfl := eq_zero_of_not_cutOff h.not_cutOff hbefore
    exact absurd h (hnot archive)
  · intro hall
    exact absurd (hall 0 (Nat.succ_pos left)) h.not_cutOff
  · intro _ hall _
    exact absurd (hall 0 (Nat.succ_pos left)) h.not_cutOff

/-- The first attempt fails for good. -/
lemma extractsRight_of_fails {destination : Option Bytes} {after : Option Bytes} {e : HelperError}
    (heq : extractSpeechTarOnce (attempts first) destination = (after, some e))
    (hnot : ∀ archive, ¬ (attempts first).Delivers archive) (hcut : ¬ (attempts first).CutOff) :
    ExtractsRight attempts removes first (left + 1) (after, some e) := by
  refine ⟨?_, ?_, ?_, ?_, ?_⟩
  · refine iff_of_false (Option.some_ne_none e) ?_
    rintro ⟨i, -, ⟨archive, h⟩, hbefore⟩
    obtain rfl := eq_zero_of_not_cutOff hcut hbefore
    exact hnot archive h
  · intro i _ archive h hbefore
    obtain rfl := eq_zero_of_not_cutOff hcut hbefore
    exact absurd h (hnot archive)
  · intro i _ _ _ hbefore
    obtain rfl := eq_zero_of_not_cutOff hcut hbefore
    exact ⟨destination, heq.symm⟩
  · intro hall
    exact absurd (hall 0 (Nat.succ_pos left)) hcut
  · intro _ hall _
    exact absurd (hall 0 (Nat.succ_pos left)) hcut

/-- The first attempt is cut off, and the others follow. -/
lemma ExtractsRight.succ (h : ExtractsRight attempts removes (first + 1) left result)
    (hnot : ∀ archive, ¬ (attempts first).Delivers archive) (hcut : (attempts first).CutOff)
    (hlast : left = 0 → removes first = true → result.1 = none) :
    ExtractsRight attempts removes first (left + 1) result := by
  have hshift : ∀ i, attempts (first + 1 + i) = attempts (first + (i + 1)) :=
    fun i => congrArg attempts (by omega)
  obtain ⟨hreturns, hdestination, hraises, hgives, hremoved⟩ := h
  simp only [hshift] at hreturns hdestination hraises hgives hremoved
  refine ⟨?_, ?_, ?_, ?_, ?_⟩
  · simp only [Nat.exists_lt_succ_left, Nat.forall_lt_succ_left, add_zero, hnot, exists_false,
      false_and, false_or, hcut, true_and]
    exact hreturns
  · intro i hi archive hdelivers hbefore
    cases i with
    | zero => exact absurd hdelivers (hnot archive)
    | succ i =>
        exact hdestination i (Nat.lt_of_succ_lt_succ hi) archive hdelivers
          (Nat.forall_lt_succ_left.1 hbefore).2
  · intro i hi hnone hgood hbefore
    cases i with
    | zero => exact absurd hcut hgood
    | succ i =>
        exact hraises i (Nat.lt_of_succ_lt_succ hi) hnone hgood
          (Nat.forall_lt_succ_left.1 hbefore).2
  · intro hall
    exact hgives (Nat.forall_lt_succ_left.1 hall).2
  · intro _ hall hremoves
    cases left with
    | zero => exact hlast rfl hremoves
    | succ left =>
        refine hremoved (Nat.succ_pos left) (Nat.forall_lt_succ_left.1 hall).2 ?_
        rwa [show first + 1 + (left + 1 - 1) = first + (left + 1 + 1 - 1) by omega]

lemma extractsRight_attemptLoop (attempts : ℕ → HelperRun) (removes : ℕ → Bool) (left : ℕ) :
    ∀ (first : ℕ) (lastError : PyString) (destination : Option Bytes),
      ExtractsRight attempts removes first left
        (attemptLoop attempts removes left first lastError destination) := by
  induction left with
  | zero =>
      intro first lastError destination
      refine ⟨?_, fun i hi => absurd hi (Nat.not_lt_zero i),
        fun i hi => absurd hi (Nat.not_lt_zero i), fun _ => ⟨lastError, rfl⟩,
        fun hpos => absurd hpos (Nat.not_lt_zero 0)⟩
      refine iff_of_false (Option.some_ne_none _) ?_
      rintro ⟨i, hi, -⟩
      exact absurd hi (Nat.not_lt_zero i)
  | succ left ih =>
      intro first lastError destination
      rw [attemptLoop]
      rcases extractSpeechTarOnce_cases (attempts first) destination with
        ⟨archive, hdelivers, heq⟩ | ⟨after, e, heq, hnot, hdisconnected⟩
      · rw [heq]
        exact extractsRight_of_delivers hdelivers
      · rw [heq]
        dsimp only
        by_cases hcut : (attempts first).CutOff
        · rw [if_pos (hdisconnected.2 hcut)]
          refine (ih (first + 1) e.text _).succ hnot hcut ?_
          rintro rfl hremoves
          rw [attemptLoop, if_pos hremoves]
        · rw [if_neg (mt hdisconnected.1 hcut)]
          exact extractsRight_of_fails heq hnot hcut

end Attempts

/-- **Extraction.** However the replies of the helper are cut into pieces, `_extractSpeechTar`
returns exactly if an attempt gets a whole reply and those before were cut off, as long as the
writing of the destination and `progress` do not raise. -/
theorem extractsRight_extractSpeechTar (attempts : ℕ → HelperRun) (removes : ℕ → Bool)
    (destination : Option Bytes) :
    ExtractsRight attempts removes 0 extractorAttempts
      (extractSpeechTar attempts removes destination) :=
  extractsRight_attemptLoop attempts removes extractorAttempts 0 _ destination

end SamsungTVVoices.Store
