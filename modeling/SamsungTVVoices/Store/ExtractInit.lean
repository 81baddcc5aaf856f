/-
The script of the extraction helper (`guest/extract-init`), and what the installer hears of it.

The script sends one reply to the port: a line that says what is wrong, or the line of an archive
and what `tar` writes.  The machine can end in the middle of it, so that what arrives at the
installer is some beginning of the reply.
-/
import SamsungTVVoices.Store.Helper

open SamsungTVVoices.Driver (CodePoint PyString)
open SamsungTVVoices.Updater (pyString)

namespace SamsungTVVoices.Store

/-! ### The script -/

/-- What the script finds in the machine. -/
structure ExtractGuest where
  /-- `/dev/vport0p1` and `/dev/vda` exist after the script has waited for them. -/
  port : Bool
  disk : Bool
  /-- The exit status of `unpack.vdfs`, and `/tmp/unpack.log`. -/
  unpackStatus : ℕ
  unpackLog : Bytes
  /-- `cd /tmp/extracted` succeeds. -/
  enters : Bool
  /-- `[ -d path ]` and `[ -f path ]` in `/tmp/extracted` -/
  isDir : String → Bool
  isFile : String → Bool
  /-- What `tar -cf -` writes for some paths, up to where it fails if it does. -/
  tar : List String → Bytes

/-- What the script sends before it turns the machine off. -/
inductive GuestReply where
  /-- There is no port. -/
  | silent
  /-- The argument of `fail`. -/
  | fail (text : Bytes)
  /-- What `tar` writes. -/
  | archive (tar : Bytes)

/-- The bytes that are written to the port. -/
def GuestReply.bytes : GuestReply → Bytes
  | silent => []
  | fail text => utf8 "ERROR " ++ text ++ [newline]
  | archive tar => utf8 "SAMSUNG_TTS_TAR_STREAM" ++ newline :: tar

/-- `$(tail -c 3000 /tmp/unpack.log | tr '\n' ' ')`: a shell variable holds no zero bytes. -/
def unpackDetail (log : Bytes) : Bytes :=
  ((log.rtake 3000).map fun b => if b = newline then 0x20 else b).filter (· ≠ 0)

/-- The library in the two places where it may be. -/
def engineInUsrLib : String := "usr/lib/libSMT_engine_sh.so"

def engineInLib : String := "lib/libSMT_engine_sh.so"

/-- The folder of the voices. -/
def speechData : String := "usr/share/voice/tts/smt_vd"

/-- `extract-init` -/
def extractInit (g : ExtractGuest) : GuestReply :=
  if !g.port then .silent
  else if !g.disk then .fail (utf8 "The firmware filesystem did not become available.")
  else if g.unpackStatus ≠ 0 then
    .fail (utf8 "The Samsung firmware filesystem could not be extracted. " ++
      unpackDetail g.unpackLog)
  else if !g.enters then .fail (utf8 "The extracted firmware could not be opened.")
  else if !g.isDir speechData then
    .fail (utf8 "The firmware did not contain Samsung TV speech data.")
  else if !g.isFile engineInUsrLib && !g.isFile engineInLib then
    .fail (utf8 "The firmware did not contain the Samsung TV speech engine.")
  else if g.isFile engineInUsrLib then .archive (g.tar [speechData, engineInUsrLib])
  else .archive (g.tar [speechData, engineInLib])

/-! ### The lines of the script -/

/-- The text can be sent as a status line. -/
structure FitsLine (text : Bytes) : Prop where
  ne_nil : text ≠ []
  newline_notMem : newline ∉ text
  length_lt : (utf8 "ERROR " ++ text).length < 4096

lemma newline_notMem_unpackDetail (log : Bytes) : newline ∉ unpackDetail log := by
  intro h
  obtain ⟨b, -, hb⟩ := List.mem_map.1 (List.mem_of_mem_filter h)
  split at hb
  · exact absurd hb (by decide)
  · next hne => exact hne hb

lemma length_unpackDetail_le (log : Bytes) : (unpackDetail log).length ≤ 3000 := by
  refine (List.length_filter_le _ _).trans ?_
  rw [List.length_map, length_rtake]
  exact min_le_left _ _

/-- Whatever `unpack.vdfs` has logged, what the script says about it is one line. -/
lemma fitsLine_unpackDetail (log : Bytes) :
    FitsLine (utf8 "The Samsung firmware filesystem could not be extracted. " ++
      unpackDetail log) := by
  have hlength := length_unpackDetail_le log
  have hfixed : (utf8 "ERROR ").length +
      (utf8 "The Samsung firmware filesystem could not be extracted. ").length ≤ 100 := by
    decide +kernel
  refine ⟨?_, ?_, ?_⟩
  · exact List.append_ne_nil_of_left_ne_nil (by decide +kernel) _
  · rw [List.mem_append, not_or]
    exact ⟨by decide +kernel, newline_notMem_unpackDetail log⟩
  · rw [List.length_append, List.length_append]
    omega

/-- Every error of the script fits in the line that the installer reads. -/
lemma fitsLine_of_fail {g : ExtractGuest} {text : Bytes} (h : extractInit g = .fail text) :
    FitsLine text := by
  unfold extractInit at h
  split_ifs at h <;> cases h
  · exact ⟨by decide +kernel, by decide +kernel, by decide +kernel⟩
  · exact fitsLine_unpackDetail g.unpackLog
  · exact ⟨by decide +kernel, by decide +kernel, by decide +kernel⟩
  · exact ⟨by decide +kernel, by decide +kernel, by decide +kernel⟩
  · exact ⟨by decide +kernel, by decide +kernel, by decide +kernel⟩

/-! ### What arrives of a reply -/

/-- A line of which something is missing is waited for. -/
lemma interrupted_of_cut {line bs tail : Bytes} (hline : newline ∉ line)
    (hlt : line.length < 4096) (hcut : bs <+: line ++ newline :: tail)
    (hle : bs.length ≤ line.length) : Interrupted bs := by
  have hbs : bs <+: line :=
    List.prefix_of_prefix_length_le hcut (List.prefix_append line _) hle
  refine Or.inl ⟨fun line' tail' hbegins => ?_, by omega⟩
  have hmem : newline ∈ bs := by
    rw [hbegins.1]
    exact List.mem_append_right _ List.mem_cons_self
  exact hline (hbs.subset hmem)

/-- What arrives behind a line that is there. -/
lemma exists_tail_of_cut {line bs tail : Bytes} (hcut : bs <+: line ++ newline :: tail)
    (hlt : line.length < bs.length) : ∃ front, bs = line ++ newline :: front ∧ front <+: tail := by
  have hline : line ++ [newline] <+: bs := by
    have hfront : line ++ [newline] <+: line ++ newline :: tail :=
      ⟨tail, by rw [List.append_assoc, List.singleton_append]⟩
    refine List.prefix_of_prefix_length_le hfront hcut ?_
    rw [List.length_append, List.length_singleton]
    omega
  obtain ⟨front, rfl⟩ := hline
  rw [List.append_assoc, List.singleton_append] at hcut ⊢
  exact ⟨front, rfl, (List.cons_prefix_cons.1 ((List.prefix_append_right_inj line).1 hcut)).2⟩

/-- The characters of an error, behind its first word. -/
lemma decodeAscii_error (text : Bytes) :
    decodeAscii (utf8 "ERROR " ++ text) = pyString "ERROR " ++ decodeAscii text := by
  rw [decodeAscii, List.map_append, decodeAscii]
  congr 1

/-- A whole error is raised in the words of the script, and not tried again. -/
lemma converse_fail {stream : Pieces UInt8} {text : Bytes} (hfits : FitsLine text)
    (hcontent : stream.content = (GuestReply.fail text).bytes) (ending : StreamEnd)
    (destination : Option Bytes) :
    converse stream ending destination =
      (destination, some (.awaiting, ⟨false, decodeAscii text⟩)) := by
  have hbegins : BeginsWith 4096 stream.content (utf8 "ERROR " ++ text) [] := by
    refine ⟨hcontent, ?_, hfits.length_lt⟩
    rw [List.mem_append, not_or]
    exact ⟨by decide +kernel, hfits.newline_notMem⟩
  obtain ⟨rest, hread, -⟩ := readLine_of_beginsWith hbegins ending
  have hlength : (pyString "ERROR ").length = 6 := by decide +kernel
  have hne : decodeAscii text ≠ [] := fun h => hfits.ne_nil (List.map_eq_nil_iff.1 h)
  rw [converse, hread]
  dsimp only
  rw [decodeAscii_error, if_pos (List.prefix_append _ _), ← hlength, List.drop_left, if_neg hne]

/-- The line of an archive. -/
lemma decodeAscii_streamLine : decodeAscii (utf8 "SAMSUNG_TTS_TAR_STREAM") = streamLine := by
  decide +kernel

/-- The beginning of a reply is too short to be judged, or it is a whole error, or it has the line
of an archive. -/
lemma heard {g : ExtractGuest} {bs : Bytes} (hcut : bs <+: (extractInit g).bytes) :
    Interrupted bs ∨
      (∃ text, extractInit g = .fail text ∧ bs = (GuestReply.fail text).bytes) ∨
      ∃ tar tail, extractInit g = .archive tar ∧ tail <+: tar ∧
        BeginsWith 4096 bs (utf8 "SAMSUNG_TTS_TAR_STREAM") tail := by
  cases hreply : extractInit g with
  | silent =>
      rw [hreply, GuestReply.bytes, List.prefix_nil] at hcut
      subst hcut
      refine Or.inl (Or.inl ⟨fun line tail hbegins => ?_, by decide⟩)
      exact List.append_ne_nil_of_right_ne_nil line (List.cons_ne_nil _ _) hbegins.1.symm
  | fail text =>
      have hfits := fitsLine_of_fail hreply
      have hline : newline ∉ utf8 "ERROR " ++ text := by
        rw [List.mem_append, not_or]
        exact ⟨by decide +kernel, hfits.newline_notMem⟩
      rw [hreply, GuestReply.bytes] at hcut
      rcases le_or_gt bs.length (utf8 "ERROR " ++ text).length with hle | hlt
      · exact Or.inl (interrupted_of_cut hline hfits.length_lt hcut hle)
      · obtain ⟨front, rfl, hfront⟩ := exists_tail_of_cut hcut hlt
        rw [List.prefix_nil.1 hfront]
        exact Or.inr (Or.inl ⟨text, rfl, rfl⟩)
  | archive tar =>
      rw [hreply, GuestReply.bytes] at hcut
      rcases le_or_gt bs.length (utf8 "SAMSUNG_TTS_TAR_STREAM").length with hle | hlt
      · exact Or.inl (interrupted_of_cut (by decide +kernel) (by decide +kernel) hcut hle)
      · obtain ⟨tail, rfl, htail⟩ := exists_tail_of_cut hcut hlt
        exact Or.inr (Or.inr ⟨tar, tail, rfl, htail, rfl, by decide +kernel, by decide +kernel⟩)

/-! ### The installer and the script -/

/-- The message of a failure begins with the text of the exception. -/
lemma prefix_failureMessage (a : HelperRun) (stage : HelperStage) (e : HelperError) :
    e.text <+: failureMessage a stage e := by
  rw [failureMessage, List.append_assoc, List.append_assoc, List.append_assoc]
  exact List.prefix_append _ _

/-- The attempt hears the beginning of what the script sends. -/
def HelperRun.Hears (a : HelperRun) (g : ExtractGuest) : Prop :=
  connectLoop a.tries = true → a.stream.content <+: (extractInit g).bytes

/-- What is raised for a script that says nothing but this. -/
inductive Reports (g : ExtractGuest) (e : HelperError) : Prop where
  /-- The error is in the words of the script. -/
  | fail (text : Bytes) (reply : extractInit g = .fail text) (words : decodeAscii text <+: e.text)
  /-- The archive is too long. -/
  | tooMuch (tar : Bytes) (reply : extractInit g = .archive tar)
      (long : maximumTarSize < tar.length)
      (words : pyString ReceiveError.tooMuch.message <+: e.text)

section Hears

variable {a : HelperRun} {g : ExtractGuest} (hhears : a.Hears g)
include hhears

/-- An archive that an attempt returns is the beginning of what `tar` has written. -/
lemma exists_tar_of_delivers {archive : Bytes} (h : a.Delivers archive) :
    ∃ tar, extractInit g = .archive tar ∧ archive <+: tar ∧ Complete maximumTarSize archive := by
  rcases heard (hhears h.1) with hcut | ⟨text, hreply, hwhole⟩ | ⟨tar, tail, hreply, htail, hbegins⟩
  · exact absurd (fun _ => hcut) h.not_cutOff
  · -- the attempt would raise the error
    have hfail := converse_fail (fitsLine_of_fail hreply) hwhole a.ending none
    rcases judged a.stream a.ending none with ⟨archive', -, heq⟩ | ⟨_, _, _, -, hnot, -⟩
    · rw [hfail] at heq
      cases heq
    · exact absurd h.2 (hnot archive)
  · obtain ⟨hcomplete, rfl⟩ := (replies_of_stream _ hbegins decodeAscii_streamLine).1.1 h.2
    exact ⟨tar, hreply, htail, hcomplete⟩

/-- An attempt that fails for good reports what the script says. -/
lemma reports_of_fails (hnot : ∀ archive, ¬ a.Delivers archive) (hcut : ¬ a.CutOff)
    (destination : Option Bytes) :
    ∃ after e, extractSpeechTarOnce a destination = (after, some e) ∧ Reports g e := by
  rw [HelperRun.CutOff, Classical.not_imp] at hcut
  obtain ⟨hconnected, hcut⟩ := hcut
  rw [extractSpeechTarOnce, if_pos hconnected]
  rcases heard (hhears hconnected) with
    hshort | ⟨text, hreply, hwhole⟩ | ⟨tar, tail, hreply, htail, hbegins⟩
  · exact absurd hshort hcut
  · rw [converse_fail (fitsLine_of_fail hreply) hwhole]
    exact ⟨_, _, rfl, .fail text hreply (prefix_failureMessage a _ ⟨false, decodeAscii text⟩)⟩
  · obtain ⟨haccepted, hinterrupted⟩ :=
      replies_of_stream tail hbegins decodeAscii_streamLine
    have hcomplete : ¬ Complete maximumTarSize tail :=
      fun hcomplete => hnot tail ⟨hconnected, haccepted.2 ⟨hcomplete, rfl⟩⟩
    have hlong : maximumTarSize < tail.length :=
      not_le.1 fun hle => hcut (hinterrupted.2 ⟨hcomplete, hle⟩)
    obtain ⟨rest, rfl, heq⟩ := converse_stream a.ending destination hbegins decodeAscii_streamLine
    rw [heq, receiveStream_tooMuch _ _ _ hlong]
    exact ⟨_, _, rfl, .tooMuch tar hreply (hlong.trans_le htail.length_le)
      (prefix_failureMessage a _ ReceiveError.tooMuch.toHelperError)⟩

end Hears

/-- What the installer ends with, told by what the scripts of its attempts say. -/
structure HearsRight (attempts : ℕ → HelperRun) (guests : ℕ → ExtractGuest)
    (result : Option Bytes × Option HelperError) : Prop where
  /-- An archive is a beginning of what one of the scripts has sent, and looks complete. -/
  returns : result.2 = none → ∃ i < extractorAttempts, ∃ tar archive,
    extractInit (guests i) = .archive tar ∧ archive <+: tar ∧ Complete maximumTarSize archive ∧
      result.1 = some archive
  /-- An error says what one of them has said, or that all of them were cut off. -/
  raises : ∀ e, result.2 = some e → (∃ i < extractorAttempts, Reports (guests i) e) ∨
    (∀ i < extractorAttempts, (attempts i).CutOff) ∧ ∃ lastError, e = disconnectedTwice lastError
  /-- A complete archive that arrives at the first attempt is what is returned. -/
  delivers : ∀ tar, extractInit (guests 0) = .archive tar → Complete maximumTarSize tar →
    connectLoop (attempts 0).tries = true →
    (attempts 0).stream.content = (GuestReply.archive tar).bytes → result = (some tar, none)

/-- A machine in which all is well. -/
def speechGuest : ExtractGuest where
  port := true
  disk := true
  unpackStatus := 0
  unpackLog := []
  enters := true
  isDir _ := true
  isFile path := path == engineInLib
  tar _ := (⟨[silentMember], 2, le_rfl⟩ : TarArchive).bytes

/-- An attempt that is cut off after some bytes. -/
def cutRun (size : ℕ) : HelperRun where
  tries := [.refused, .connected]
  stream := .whole ((extractInit speechGuest).bytes.take size)
  ending := .reset
  console := [utf8 "reboot: Power down\n"]
  exitCode := some 0
  elapsed := 123

end SamsungTVVoices.Store
