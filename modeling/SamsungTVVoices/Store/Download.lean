/-
The resumable download of a firmware package (`firmwareStore._download` and the steps of
`_installPack` around it).

A run of `_download` is the list of its effects on the disk: it opens the `.part` file, for
writing or for appending, writes the chunks that the response returns, and renames the file
to its destination.  A run that is interrupted has performed some of these effects, and
possibly part of the next write; what a killed process had still buffered is not among
them.  The state that is carried from run to run is the pair of files.
-/
import SamsungTVVoices.Store.Packs
import SamsungTVVoices.Lib.Stream

namespace SamsungTVVoices.Store

/-- The files of a download: `destination + ".part"` and `destination`. -/
structure DownloadFiles where
  part : Option Bytes
  destination : Option Bytes
deriving DecidableEq, Repr

/-- What `urlopen` returned: the status, the `Content-Length` header and the body as it
arrives.  `response.read` returns nothing once the body ends, for whatever reason. -/
structure Response where
  status : ℕ
  contentLength : Option ℕ
  body : Pieces UInt8

/-- Why a download step raised. -/
inductive DownloadError where
  /-- `urlopen` raised for this status. -/
  | http (status : ℕ)
  /-- The file is not the one that the pack names. -/
  | mismatch
deriving DecidableEq, Repr

/-- The text of the error that the installer raises itself. -/
def DownloadError.message : DownloadError → String
  | http status => s!"HTTP Error {status}"
  | mismatch => "The downloaded firmware did not match Samsung's verified package."

/-- The two modes in which the partial file is opened. -/
inductive OpenMode where
  | write | append
deriving DecidableEq, Repr

/-- What a run of `_download` does, step by step. -/
inductive Effect where
  /-- `open(partial, mode)` -/
  | openPart (mode : OpenMode)
  /-- `output.write(chunk)` -/
  | write (chunk : Bytes)
  /-- `progress("download", received, total)` -/
  | progress (received total : ℕ)
  /-- `os.replace(partial, destination)` -/
  | replace
deriving DecidableEq, Repr

/-- An effect on the files. -/
def Effect.apply (fs : DownloadFiles) : Effect → DownloadFiles
  | openPart .write => { fs with part := some [] }
  | openPart .append => { fs with part := some (fs.part.getD []) }
  | write chunk => { fs with part := fs.part.map (· ++ chunk) }
  | progress _ _ => fs
  | replace => ⟨none, fs.part⟩

/-- Effects that were all performed. -/
def applyAll (fs : DownloadFiles) (es : List Effect) : DownloadFiles := es.foldl Effect.apply fs

/-- Where a run is interrupted: after `effects` of its effects and, if the next one is a
write, after `bytes` bytes of it. -/
structure Cut where
  effects : ℕ
  bytes : ℕ
deriving DecidableEq, Repr

/-- The effects that reach the disk before the interruption. -/
def cutEffects (bytes : ℕ) : ℕ → List Effect → List Effect
  | _, [] => []
  | 0, .write chunk :: _ => [.write (chunk.take bytes)]
  | 0, _ :: _ => []
  | n + 1, e :: es => e :: cutEffects bytes n es

/-- How a run of `_download` ends. -/
inductive Outcome where
  | returned
  | raised (e : DownloadError)
  /-- By an exception from outside or by the end of the process. -/
  | interrupted
deriving DecidableEq, Repr

/-- The size of one `response.read`. -/
def readSize : ℕ := 1024 * 1024

/-- The chunks that `response.read(1024 * 1024)` returns until it returns nothing. -/
def readChunks (body : Pieces UInt8) : List Bytes :=
  let chunk := body.read readSize
  if _h : chunk.1 = [] then [] else chunk.1 :: readChunks chunk.2
termination_by body.content.length
decreasing_by
  have hpos : 0 < (body.read readSize).1.length := List.length_pos_iff.2 _h
  have hlen := body.length_content_read readSize
  omega

/-- The chunks together are the body. -/
lemma flatten_readChunks (body : Pieces UInt8) : (readChunks body).flatten = body.content := by
  induction body using readChunks.induct with
  | case1 body chunk hnil =>
      rw [readChunks, dif_pos hnil]
      exact ((body.read_eq_nil_iff (by decide)).1 hnil).symm
  | case2 body chunk hne ih =>
      rw [readChunks, dif_neg hne, List.flatten_cons, ih]
      exact body.read_append_content readSize

/-- The writes of the copy loop, each followed by its progress report. -/
def copyEffects (total : ℕ) : ℕ → List Bytes → List Effect
  | _, [] => []
  | received, chunk :: chunks =>
      .write chunk :: .progress (received + chunk.length) total ::
        copyEffects total (received + chunk.length) chunks

/-- The size of the partial file that a run starts from. -/
def receivedBefore (fs : DownloadFiles) : ℕ := (fs.part.map List.length).getD 0

/-- The `Range` header of the request: the first byte that is still missing. -/
def requestRange (fs : DownloadFiles) : Option ℕ :=
  if receivedBefore fs = 0 then none else some (receivedBefore fs)

/-- How the partial file is opened, and how many bytes of it are kept. -/
def openMode (received : ℕ) (r : Response) : OpenMode × ℕ :=
  if received ≠ 0 ∧ r.status ≠ 206 then (.write, 0)
  else if received ≠ 0 then (.append, received) else (.write, received)

/-- The effects of a run that got the response `r`. -/
def downloadEffects (received : ℕ) (r : Response) : List Effect :=
  let mode := openMode received r
  let remaining := r.contentLength.getD 0
  let total := if remaining ≠ 0 then mode.2 + remaining else 0
  .openPart mode.1 :: copyEffects total mode.2 (readChunks r.body) ++ [.replace]

/-- `_download`: the request is answered by `urlopen`; a run with a `cut` is interrupted
there. -/
def download (urlopen : Option ℕ → Except DownloadError Response) (cut : Option Cut)
    (fs : DownloadFiles) : DownloadFiles × Outcome :=
  match urlopen (requestRange fs) with
  | .error e => (fs, .raised e)
  | .ok r =>
      let es := downloadEffects (receivedBefore fs) r
      match cut with
      | none => (applyAll fs es, .returned)
      | some c => (applyAll fs (cutEffects c.bytes c.effects es), .interrupted)

/-! ### What the effects leave behind -/

@[simp] lemma applyAll_nil (fs : DownloadFiles) : applyAll fs [] = fs := rfl

@[simp] lemma applyAll_cons (fs : DownloadFiles) (e : Effect) (es : List Effect) :
    applyAll fs (e :: es) = applyAll (e.apply fs) es := rfl

lemma applyAll_append (fs : DownloadFiles) (es es' : List Effect) :
    applyAll fs (es ++ es') = applyAll (applyAll fs es) es' :=
  List.foldl_append

/-- The copy loop appends the chunks to the open file. -/
lemma applyAll_copyEffects (total : ℕ) (chunks : List Bytes) :
    ∀ (received : ℕ) (kept : Bytes) (dest : Option Bytes),
      applyAll ⟨some kept, dest⟩ (copyEffects total received chunks) =
        ⟨some (kept ++ chunks.flatten), dest⟩ := by
  induction chunks with
  | nil => intro received kept dest; simp [copyEffects]
  | cons chunk chunks ih =>
      intro received kept dest
      simp [copyEffects, Effect.apply, ih]

/-- What is kept of the partial file: nothing if the server starts over. -/
def keptPart (fs : DownloadFiles) (r : Response) : Bytes :=
  if r.status = 206 then fs.part.getD [] else []

lemma receivedBefore_eq (fs : DownloadFiles) : receivedBefore fs = (fs.part.getD []).length := by
  cases h : fs.part <;> simp [receivedBefore, h]

/-- Opening the partial file leaves what is kept of it. -/
lemma apply_openPart (fs : DownloadFiles) (r : Response) :
    Effect.apply fs (.openPart (openMode (receivedBefore fs) r).1) =
      ⟨some (keptPart fs r), fs.destination⟩ := by
  have hrec := receivedBefore_eq fs
  unfold openMode keptPart
  by_cases h0 : receivedBefore fs = 0
  · have hnil : fs.part.getD [] = [] := List.length_eq_zero_iff.1 (hrec ▸ h0)
    simp [h0, Effect.apply, hnil]
  · by_cases h206 : r.status = 206
    · simp [h0, h206, Effect.apply]
    · simp [h0, h206, Effect.apply]

/-- All effects of a run publish what it kept and what arrived. -/
lemma applyAll_downloadEffects (fs : DownloadFiles) (r : Response) :
    applyAll fs (downloadEffects (receivedBefore fs) r) =
      ⟨none, some (keptPart fs r ++ r.body.content)⟩ := by
  simp only [downloadEffects, applyAll_append, applyAll_cons, apply_openPart,
    applyAll_copyEffects, flatten_readChunks, applyAll_nil]
  rfl

/-- A run that is not interrupted publishes what it kept and what arrived, whatever length
was announced. -/
theorem download_of_ok {urlopen : Option ℕ → Except DownloadError Response} {fs : DownloadFiles}
    {r : Response} (h : urlopen (requestRange fs) = .ok r) :
    download urlopen none fs =
      (⟨none, some (keptPart fs r ++ r.body.content)⟩, .returned) := by
  simp only [download, h, applyAll_downloadEffects]

/-- An interrupted copy loop has appended a prefix of what arrives, or all of it has been
published. -/
lemma applyAll_cut_copyEffects (bytes total : ℕ) (chunks : List Bytes) :
    ∀ (n received : ℕ) (kept : Bytes) (dest : Option Bytes),
      (∃ k, applyAll ⟨some kept, dest⟩
          (cutEffects bytes n (copyEffects total received chunks ++ [.replace])) =
          ⟨some (kept ++ chunks.flatten.take k), dest⟩) ∨
        applyAll ⟨some kept, dest⟩
          (cutEffects bytes n (copyEffects total received chunks ++ [.replace])) =
          ⟨none, some (kept ++ chunks.flatten)⟩ := by
  induction chunks with
  | nil =>
      intro n received kept dest
      cases n with
      | zero => exact Or.inl ⟨0, by simp [copyEffects, cutEffects]⟩
      | succ n =>
          right
          cases n <;> simp [copyEffects, cutEffects, Effect.apply]
  | cons chunk chunks ih =>
      intro n received kept dest
      match n with
      | 0 =>
          refine Or.inl ⟨min bytes chunk.length, ?_⟩
          simp [copyEffects, cutEffects, Effect.apply, List.take_append, List.take_eq_take_iff]
      | 1 =>
          exact Or.inl ⟨chunk.length, by simp [copyEffects, cutEffects, Effect.apply]⟩
      | n + 2 =>
          simp only [copyEffects, List.cons_append, cutEffects, applyAll_cons, Effect.apply,
            Option.map_some]
          rcases ih n (received + chunk.length) (kept ++ chunk) dest with ⟨k, hk⟩ | hk
          · refine Or.inl ⟨chunk.length + k, ?_⟩
            rw [hk, List.flatten_cons, List.take_length_add_append, List.append_assoc]
          · right
            rw [hk, List.flatten_cons, List.append_assoc]

/-- What an interrupted run leaves: the files as they were, a partial file that holds what
was kept and a prefix of what arrives, or the published file. -/
lemma applyAll_cutEffects (fs : DownloadFiles) (r : Response) (c : Cut) :
    applyAll fs (cutEffects c.bytes c.effects (downloadEffects (receivedBefore fs) r)) = fs ∨
      (∃ k, applyAll fs (cutEffects c.bytes c.effects
          (downloadEffects (receivedBefore fs) r)) =
          ⟨some (keptPart fs r ++ r.body.content.take k), fs.destination⟩) ∨
        applyAll fs (cutEffects c.bytes c.effects (downloadEffects (receivedBefore fs) r)) =
          ⟨none, some (keptPart fs r ++ r.body.content)⟩ := by
  cases hn : c.effects with
  | zero => exact Or.inl rfl
  | succ n =>
      right
      simp only [downloadEffects, List.cons_append, cutEffects, applyAll_cons, apply_openPart]
      rw [← flatten_readChunks]
      exact applyAll_cut_copyEffects _ _ _ _ _ _ _

/-! ### Runs against a server that holds a fixed file -/

/-- How the bodies of responses are cut on their way. -/
structure Network where
  pieces : Bytes → Pieces UInt8
  content_pieces : ∀ body, (pieces body).content = body

/-- Bodies arrive in one piece. -/
def Network.direct : Network := ⟨Pieces.whole, Pieces.content_whole⟩

/-- What the server does with a `Range` header. -/
inductive ServerMode where
  | honoursRange | ignoresRange
deriving DecidableEq, Repr

/-- A server that holds the file `R`. -/
def serve (R : Bytes) (mode : ServerMode) (net : Network) :
    Option ℕ → Except DownloadError Response
  | none => .ok ⟨200, some R.length, net.pieces R⟩
  | some n =>
      match mode with
      | .ignoresRange => .ok ⟨200, some R.length, net.pieces R⟩
      | .honoursRange =>
          if n < R.length then .ok ⟨206, some (R.length - n), net.pieces (R.drop n)⟩
          else .error (.http 416)

/-- The circumstances of one run. -/
structure Attempt where
  mode : ServerMode
  net : Network

/-- The files after a history of interrupted runs. -/
def afterInterrupted (R : Bytes) (fs : DownloadFiles) (history : List (Attempt × Cut)) :
    DownloadFiles :=
  history.foldl (fun fs h => (download (serve R h.1.mode h.1.net) (some h.2) fs).1) fs

/-- A run returns normally with the file published and no partial file. -/
def Completes (R : Bytes) (a : Attempt) (fs : DownloadFiles) : Prop :=
  download (serve R a.mode a.net) none fs = (⟨none, some R⟩, .returned)

/-- The partial file, if there is one, holds the beginning of `R`. -/
def PartOf (R : Bytes) (fs : DownloadFiles) : Prop := ∀ b ∈ fs.part, b <+: R

/-- What is kept and what the server sends are together the file. -/
lemma kept_append_body {R : Bytes} {mode : ServerMode} {net : Network} {fs : DownloadFiles}
    {r : Response} (hpart : PartOf R fs) (h : serve R mode net (requestRange fs) = .ok r) :
    keptPart fs r ++ r.body.content = R := by
  have hwhole : ∀ r : Response, r = ⟨200, some R.length, net.pieces R⟩ →
      keptPart fs r ++ r.body.content = R := by
    rintro r rfl
    simp [keptPart, net.content_pieces]
  unfold requestRange at h
  by_cases h0 : receivedBefore fs = 0
  · rw [if_pos h0] at h
    exact hwhole r (Except.ok.inj h).symm
  · rw [if_neg h0] at h
    cases mode with
    | ignoresRange => exact hwhole r (Except.ok.inj h).symm
    | honoursRange =>
        simp only [serve] at h
        split at h
        · obtain rfl := Except.ok.inj h
          obtain ⟨b, hb⟩ : ∃ b, fs.part = some b := by
            cases hp : fs.part with
            | none => simp [receivedBefore, hp] at h0
            | some b => exact ⟨b, rfl⟩
          have hpre := hpart b (Option.mem_def.2 hb)
          simp only [keptPart, receivedBefore, hb, net.content_pieces, Option.getD_some,
            Option.map_some, if_true]
          rw [List.prefix_iff_eq_take] at hpre
          nth_rewrite 1 [hpre]
          exact List.take_append_drop _ _
        · exact absurd h (by simp)

/-- The request is refused only when the partial file is already complete. -/
lemma serve_error_iff {R : Bytes} {mode : ServerMode} {net : Network} {fs : DownloadFiles}
    (hpart : PartOf R fs) :
    (∃ e, serve R mode net (requestRange fs) = .error e) ↔
      mode = .honoursRange ∧ fs.part = some R ∧ R ≠ [] := by
  constructor
  · rintro ⟨e, h⟩
    unfold requestRange at h
    by_cases h0 : receivedBefore fs = 0
    · rw [if_pos h0] at h
      exact absurd h (by simp [serve])
    · rw [if_neg h0] at h
      cases mode with
      | ignoresRange => exact absurd h (by simp [serve])
      | honoursRange =>
          simp only [serve] at h
          split at h
          · exact absurd h (by simp)
          · next hlt =>
              cases hp : fs.part with
              | none => simp [receivedBefore, hp] at h0
              | some b =>
                  have hpre := hpart b (Option.mem_def.2 hp)
                  simp only [receivedBefore, hp, Option.map_some, Option.getD_some] at h0 hlt
                  have hbR : b = R := hpre.eq_of_length (le_antisymm hpre.length_le (by omega))
                  subst hbR
                  exact ⟨rfl, rfl, List.length_pos_iff.1 (by omega)⟩
  · rintro ⟨rfl, hp, hne⟩
    have hrec : receivedBefore fs = R.length := by simp [receivedBefore, hp]
    refine ⟨.http 416, ?_⟩
    simp [requestRange, hrec, serve, hne]

/-- An interrupted run leaves the beginning of `R` in the partial file. -/
lemma partOf_download {R : Bytes} (a : Attempt) (c : Cut) {fs : DownloadFiles}
    (hpart : PartOf R fs) : PartOf R (download (serve R a.mode a.net) (some c) fs).1 := by
  cases h : serve R a.mode a.net (requestRange fs) with
  | error e =>
      simp only [download, h]
      exact hpart
  | ok r =>
      have hR := kept_append_body hpart h
      simp only [download, h]
      rcases applyAll_cutEffects fs r c with heq | ⟨k, heq⟩ | heq
      · rw [heq]
        exact hpart
      · rw [heq]
        intro b hb
        obtain rfl := Option.some.inj hb
        rw [← hR]
        exact (List.prefix_append_right_inj _).2 (List.take_prefix _ _)
      · rw [heq]
        intro b hb
        exact absurd hb (by simp)

/-- After every history of interrupted runs the partial file holds the beginning of `R`. -/
theorem partOf_afterInterrupted {R : Bytes} (history : List (Attempt × Cut)) :
    ∀ {fs : DownloadFiles}, PartOf R fs → PartOf R (afterInterrupted R fs history) := by
  induction history with
  | nil => exact fun h => h
  | cons h history ih => exact fun hpart => ih (partOf_download h.1 h.2 hpart)

/-- A run that is not interrupted completes unless the server refuses the request. -/
lemma completes_iff {R : Bytes} {a : Attempt} {fs : DownloadFiles} (hpart : PartOf R fs) :
    Completes R a fs ↔ ¬ ∃ e, serve R a.mode a.net (requestRange fs) = .error e := by
  unfold Completes
  cases h : serve R a.mode a.net (requestRange fs) with
  | error e =>
      have hraise : download (serve R a.mode a.net) none fs = (fs, .raised e) := by
        simp only [download, h]
      simp [hraise]
  | ok r =>
      rw [download_of_ok h, kept_append_body hpart h]
      simp

/-- **Resuming.**  After any history of interrupted runs the next run that is not
interrupted completes, except when a run was stopped between its last write and the rename:
the partial file is then complete, the request asks for bytes behind the end of the file,
and a server that honours ranges refuses it. -/
theorem completes_afterInterrupted_iff (R : Bytes) (dest : Option Bytes)
    (history : List (Attempt × Cut)) (a : Attempt) :
    Completes R a (afterInterrupted R ⟨none, dest⟩ history) ↔
      ¬ (a.mode = .honoursRange ∧
        (afterInterrupted R ⟨none, dest⟩ history).part = some R ∧ R ≠ []) := by
  have hpart : PartOf R (afterInterrupted R ⟨none, dest⟩ history) :=
    partOf_afterInterrupted history (by intro b hb; exact absurd hb (by simp))
  rw [completes_iff hpart, serve_error_iff hpart]

/-- The state of a complete partial file is final: the refused run changes nothing, so every
later run against the same server is refused as well. -/
theorem download_stuck {R : Bytes} {net : Network} {fs : DownloadFiles} (hfs : fs.part = some R)
    (hne : R ≠ []) (cut : Option Cut) :
    download (serve R .honoursRange net) cut fs = (fs, .raised (.http 416)) := by
  have hrec : receivedBefore fs = R.length := by simp [receivedBefore, hfs]
  have hrefused : serve R .honoursRange net (requestRange fs) = .error (.http 416) := by
    simp [requestRange, hrec, serve, hne]
  simp only [download, hrefused]

/-- A single byte, and a run that is stopped right before the rename. -/
theorem not_completes_before_rename :
    ¬ Completes [7] ⟨.honoursRange, Network.direct⟩
      (afterInterrupted [7] ⟨none, none⟩ [(⟨.honoursRange, Network.direct⟩, ⟨3, 0⟩)]) := by
  have hchunks : readChunks (Pieces.whole [7]) = [[7]] := by
    rw [readChunks, readChunks]
    simp [Pieces.read, Pieces.whole, readSize]
  have hfs : afterInterrupted [7] ⟨none, none⟩ [(⟨.honoursRange, Network.direct⟩, ⟨3, 0⟩)] =
      ⟨some [7], none⟩ := by
    simp [afterInterrupted, download, requestRange, receivedBefore, serve, downloadEffects,
      openMode, Network.direct, hchunks, copyEffects, cutEffects, Effect.apply]
  rw [hfs, Completes, download_stuck rfl (by simp)]
  simp

/-! ### Verification, and connections that close early -/

/-- The verification step of `_installPack`: a file with the wrong checksum is deleted. -/
def verify (sha256 : Bytes → String) (pack : Pack) (fs : DownloadFiles) :
    DownloadFiles × Outcome :=
  if fs.destination.map sha256 = some pack.sha256 then (fs, .returned)
  else ({ fs with destination := none }, .raised .mismatch)

/-- The steps of `_installPack` that obtain the package: a cached file is used when its
checksum is right, and deleted before the download otherwise. -/
def obtainFirmware (sha256 : Bytes → String) (pack : Pack)
    (urlopen : Option ℕ → Except DownloadError Response) (fs : DownloadFiles) :
    DownloadFiles × Outcome :=
  if fs.destination.map sha256 = some pack.sha256 then (fs, .returned)
  else
    let run := download urlopen none { fs with destination := none }
    match run.2 with
    | .returned => verify sha256 pack run.1
    | outcome => (run.1, outcome)

/-- A response that announces its length.  At most that many bytes are read from it; when
the connection ends early, fewer arrive. -/
structure SizedResponse where
  status : ℕ
  contentLength : ℕ
  body : Pieces UInt8
  length_body_le : body.content.length ≤ contentLength

/-- The response as `_download` sees it. -/
def SizedResponse.toResponse (r : SizedResponse) : Response :=
  ⟨r.status, some r.contentLength, r.body⟩

/-- The law of an early end, for a run from the partial file `part`: when fewer bytes arrive
than were announced, nothing is published and the bytes are kept for the next run, and the
destination is created only by a run that got all of them. -/
def KeepsEarlyEnd (sha256 : Bytes → String) (pack : Pack) (part : Option Bytes)
    (r : SizedResponse) : Prop :=
  let before : DownloadFiles := ⟨part, none⟩
  let after := (download (fun _ => .ok r.toResponse) none before).1
  let final := (verify sha256 pack after).1
  (r.body.content.length < r.contentLength →
      final.destination = none ∧
        final.part = some (keptPart before r.toResponse ++ r.body.content)) ∧
    (after.destination ≠ none → r.body.content.length = r.contentLength)

/-- No partial file survives the download and the verification. -/
lemma part_verify_download (sha256 : Bytes → String) (pack : Pack) (fs : DownloadFiles)
    (r : Response) : (verify sha256 pack (download (fun _ => .ok r) none fs).1).1.part = none := by
  rw [download_of_ok rfl]
  unfold verify
  split <;> rfl

/-- **Early ends.**  The law holds exactly for the responses that arrive in full: the copy
loop takes an early end for the end of the file and publishes it. -/
theorem keepsEarlyEnd_iff (sha256 : Bytes → String) (pack : Pack) (part : Option Bytes)
    (r : SizedResponse) :
    KeepsEarlyEnd sha256 pack part r ↔ r.body.content.length = r.contentLength := by
  unfold KeepsEarlyEnd
  simp only [part_verify_download]
  constructor
  · rintro ⟨-, hpublished⟩
    refine hpublished ?_
    rw [download_of_ok rfl]
    simp
  · intro hfull
    exact ⟨fun hlt => absurd hfull hlt.ne, fun _ => hfull⟩

/-- What an early end costs: the installer fails, and no byte that was received is left. -/
theorem obtainFirmware_early_end (sha256 : Bytes → String) (pack : Pack) (fs : DownloadFiles)
    (r : SizedResponse) (hcached : fs.destination.map sha256 ≠ some pack.sha256)
    (hsha : sha256 (keptPart fs r.toResponse ++ r.body.content) ≠ pack.sha256) :
    obtainFirmware sha256 pack (fun _ => .ok r.toResponse) fs =
      (⟨none, none⟩, .raised .mismatch) := by
  have hkept : keptPart { fs with destination := none } r.toResponse =
      keptPart fs r.toResponse := rfl
  rw [obtainFirmware, if_neg hcached, download_of_ok rfl]
  simp only [verify, hkept]
  rw [if_neg (by simpa [SizedResponse.toResponse] using hsha)]

/-- Four of ten announced bytes. -/
theorem not_keepsEarlyEnd_four_of_ten :
    ¬ KeepsEarlyEnd (fun _ => "") PackId.europe.pack none
      ⟨200, 10, Pieces.whole [1, 2, 3, 4], by simp⟩ := by
  rintro ⟨hshort, -⟩
  have hlt := hshort (by simp)
  rw [part_verify_download] at hlt
  exact absurd hlt.2 (by simp)

end SamsungTVVoices.Store
