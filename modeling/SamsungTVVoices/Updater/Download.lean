/-
What reaches the installation of an update (`_samsungTVUpdater.py`, `_checkWorker`,
`_offerUpdate`, `_downloadWorker`, and the file that `_install` removes).

Checks and downloads run on threads of their own, and any number of them may be under way.  The
actions carry what comes from outside: the responses, which version is installed when a check
compares, the user's answers, and which operation fails.  A check is one step, as nothing but its
offer leaves it.
-/
import SamsungTVVoices.Updater.Manifest
import SamsungTVVoices.Lib.StepSystem

open StepSystem
open SamsungTVVoices.Driver (PyString)

namespace SamsungTVVoices.Updater

/-! ### The state -/

/-- A manifest that has passed its check, and the version that was installed then. -/
structure Offer where
  info : Json
  installed : PyString

/-- Where a download thread is.  `path` is the number of its temporary file, `total` what it has
counted and `hashed` what it has hashed. -/
inductive DownloadPc where
  | starting
  | receiving (path total : ℕ) (hashed : Bytes)
  /-- The response has ended and the file is closed. -/
  | received (path total : ℕ) (hashed : Bytes)
  /-- In the `finally`, with a file to remove. -/
  | cleanup (path : ℕ)
  | scheduled (path : ℕ)
  /-- No temporary file was made. -/
  | failed
  /-- After `os.remove`; whether the file is gone. -/
  | removed (path : ℕ) (gone : Bool)
deriving DecidableEq, Repr

structure Download where
  offer : Offer
  pc : DownloadPc

/-- A call of `_install` that has been posted. -/
structure InstallCall where
  bundle : Bundle
  path : ℕ
  offer : Offer

structure DownloadsState where
  /-- The temporary files that have been made; none is a file that is gone. -/
  files : List (Option Bytes)
  /-- The calls of `_offerUpdate` that have been posted. -/
  offers : List Offer
  downloads : List Download
  installs : List InstallCall

def noDownloads : DownloadsState := ⟨[], [], [], []⟩

/-! ### The steps -/

inductive DownloadsAction where
  /-- A check gets this response. -/
  | check (response : Bytes) (installed : PyString)
  /-- The user answers an offer. -/
  | answer (i : ℕ) (yes : Bool)
  /-- A download thread makes its temporary file, or fails to. -/
  | create (i : ℕ) (ok : Bool)
  /-- `response.read` returns a block. -/
  | block (i : ℕ) (data : Bytes)
  /-- `response.read` returns nothing. -/
  | close (i : ℕ)
  /-- An exception comes from the network or the disk, when this has been written of a block. -/
  | fail (i : ℕ) (written : Bytes)
  /-- The download is tested; whether the call of `_install` can be posted. -/
  | test (i : ℕ) (posts : Bool)
  /-- `os.remove` -/
  | remove (i : ℕ) (ok : Bool)
  /-- `_install` has run; whether it could remove the file. -/
  | install (k : ℕ) (ok : Bool)

namespace DownloadsState

/-- The content of a temporary file. -/
def content (s : DownloadsState) (path : ℕ) : Bytes := (s.files[path]?.join).getD []

/-- Bytes are written to the end of a file. -/
def write (s : DownloadsState) (path : ℕ) (data : Bytes) : List (Option Bytes) :=
  s.files.set path (some (s.content path ++ data))

/-- The thread goes on, and the files are these. -/
def goTo (s : DownloadsState) (i : ℕ) (d : Download) (pc : DownloadPc)
    (files : List (Option Bytes)) : DownloadsState :=
  { s with downloads := s.downloads.set i { d with pc := pc }, files := files }

end DownloadsState

/-- A step of a download thread. -/
def downloadStep (lib : Library) (s : DownloadsState) (i : ℕ) (d : Download) :
    DownloadsAction → Option DownloadsState
  | .create _ ok =>
      if d.pc = .starting then
        some (if ok then s.goTo i d (.receiving s.files.length 0 []) (s.files ++ [some []])
          else s.goTo i d .failed s.files)
      else none
  | .block _ data =>
      match d.pc with
      | .receiving path total hashed =>
          -- an empty block ends the loop
          if data = [] then none
          else some (s.goTo i d (.receiving path (total + data.length) (hashed ++ data))
            (s.write path data))
      | _ => none
  | .close _ =>
      match d.pc with
      | .receiving path total hashed => some (s.goTo i d (.received path total hashed) s.files)
      | _ => none
  | .fail _ written =>
      match d.pc with
      | .receiving path _ _ => some (s.goTo i d (.cleanup path) (s.write path written))
      | _ => none
  | .test _ posts =>
      match d.pc with
      | .received path total hashed =>
          match checkFile lib d.offer.info total hashed (s.content path) with
          | some bundle =>
              -- once it is posted, the file is left to `_install`
              some (if posts then
                { s.goTo i d (.scheduled path) s.files with
                  installs := s.installs ++ [⟨bundle, path, d.offer⟩] }
              else s.goTo i d (.cleanup path) s.files)
          | none => some (s.goTo i d (.cleanup path) s.files)
      | _ => none
  | .remove _ ok =>
      match d.pc with
      | .cleanup path =>
          some (s.goTo i d (.removed path ok) (if ok then s.files.set path none else s.files))
      | _ => none
  | .check _ _ | .answer _ _ | .install _ _ => none

def downloadsStep (lib : Library) (key : PublicKey) (s : DownloadsState) (a : DownloadsAction) :
    Option DownloadsState :=
  match a with
  | .check response installed =>
      match checkManifest lib key response installed with
      -- `wx.CallAfter(self._offerUpdate, …)`
      | some info => some { s with offers := s.offers ++ [⟨info, installed⟩] }
      | none => some s
  | .answer i yes => s.offers[i]?.map fun offer =>
      { s with
        offers := s.offers.eraseIdx i
        downloads := if yes then s.downloads ++ [⟨offer, .starting⟩] else s.downloads }
  | .install k ok => s.installs[k]?.map fun call =>
      { s with
        installs := s.installs.eraseIdx k
        files := if ok then s.files.set call.path none else s.files }
  | .create i _ | .block i _ | .close i | .fail i _ | .test i _ | .remove i _ =>
      s.downloads[i]?.bind fun d => downloadStep lib s i d a

/-! ### The property -/

/-- The number stands for a signature of a payload that was never signed. -/
def Forges (lib : Library) (key : PublicKey) (signed : Set Bytes) (value : ℕ) : Prop :=
  ∃ payload ∉ signed, key.encoded value = expectedEncoding lib key.length payload

/-- No response has a forged signature. -/
def Unforged (lib : Library) (key : PublicKey) (signed : Set Bytes) : DownloadsAction → Prop
  | .check response _ => ∀ info signature, lib.loads (response.take (128 * 1024)) = some info →
      signatureOf lib key info = some signature → ¬ Forges lib key signed (signatureValue signature)
  | _ => True

/-- The manifest was signed, and it is for a newer version. -/
def OfferSafe (lib : Library) (signed : Set Bytes) (offer : Offer) : Prop :=
  (∃ payload ∈ signed, signedPayload offer.info = some payload) ∧
    ∃ version, offer.info.get? "version" = some version ∧
      lib.version offer.installed < lib.version (lib.str version)

/-- A file and a bundle match a manifest that was signed and is for a newer version. -/
structure InstallSafe (lib : Library) (signed : Set Bytes) (offer : Offer) (bundle : Bundle)
    (content : Bytes) : Prop where
  signed : ∃ payload ∈ signed, signedPayload offer.info = some payload
  size : ∃ size, offer.info.get? "size" = some size ∧ lib.int size = some (content.length : ℤ)
  sha256 : ∃ sha256, offer.info.get? "sha256" = some sha256 ∧
    lib.casefold (lib.hexdigest content) = lib.casefold (lib.str sha256)
  opens : lib.openBundle content = some bundle
  name : bundle.name = pyString "samsungTVVoices"
  version : ∃ version, offer.info.get? "version" = some version ∧
    lib.version bundle.version = lib.version (lib.str version) ∧
      lib.version offer.installed < lib.version (lib.str version)

/-- The temporary file that the thread has made. -/
def DownloadPc.path? : DownloadPc → Option ℕ
  | .starting | .failed => none
  | .receiving path _ _ | .received path _ _ | .cleanup path | .scheduled path
  | .removed path _ => some path

/-- The download thread that takes the step. -/
def DownloadsAction.thread? : DownloadsAction → Option ℕ
  | .create i _ | .block i _ | .close i | .fail i _ | .test i _ | .remove i _ => some i
  | .check _ _ | .answer _ _ | .install _ _ => none

/-- The thread is at its end: it has no step left to take. -/
def Ended (lib : Library) (key : PublicKey) (s : DownloadsState) (i : ℕ) : Prop :=
  ∀ a : DownloadsAction, a.thread? = some i → downloadsStep lib key s a = none

/-- In the run, a call of `_install` with this file has been posted. -/
def Posted (lib : Library) (key : PublicKey) (as : List DownloadsAction) (path : ℕ) : Prop :=
  ∃ before u, before <+: as ∧ run (downloadsStep lib key) noDownloads before = some u ∧
    path ∈ u.installs.map (·.path)

/-- Only what is signed, newer and matching is installed, and no temporary file is forgotten. -/
structure UpdateSafe (lib : Library) (key : PublicKey) (signed : Set Bytes)
    (as : List DownloadsAction) (s : DownloadsState) : Prop where
  installs : ∀ call ∈ s.installs, ∃ content, s.files[call.path]? = some (some content) ∧
    InstallSafe lib signed call.offer call.bundle content
  /-- A file that is there has been made by one of the threads. -/
  owned : ∀ path content, s.files[path]? = some (some content) →
    ∃ (i : ℕ) (d : Download), s.downloads[i]? = some d ∧ d.pc.path? = some path
  /-- A thread that is at its end and has scheduled nothing has removed its file, unless
  `os.remove` has failed. -/
  removed : ∀ (i : ℕ) (d : Download) (path : ℕ), s.downloads[i]? = some d →
    d.pc.path? = some path → Ended lib key s i → ¬ Posted lib key as path →
      s.files[path]? = some none ∨ .remove i false ∈ as

/-! ### The checks -/

variable {lib : Library} {key : PublicKey} {signed : Set Bytes} {s t : DownloadsState}

lemma signed_of_verifySignature {info : Json} (h : verifySignature lib key info = true)
    (hunforged : ∀ signature, signatureOf lib key info = some signature →
      ¬ Forges lib key signed (signatureValue signature)) :
    ∃ payload ∈ signed, signedPayload info = some payload := by
  unfold verifySignature at h
  split at h
  · next signature payload hsignature hpayload =>
      refine ⟨payload, ?_, hpayload⟩
      by_contra hnot
      exact hunforged signature hsignature ⟨payload, hnot, beq_iff_eq.1 h⟩
  · cases h

/-- What is offered has a signature, and is newer. -/
lemma offerSafe_of_checkManifest {response : Bytes} {installed : PyString} {info : Json}
    (h : checkManifest lib key response installed = some info)
    (hunforged : Unforged lib key signed (.check response installed)) :
    OfferSafe lib signed ⟨info, installed⟩ := by
  unfold checkManifest at h
  split at h
  · cases h
  next info' hloads =>
  split at h
  case isFalse => cases h
  case isTrue hverify =>
    split at h
    case h_2 => cases h
    case h_1 version _ _ _ hversion _ _ _ =>
      split at h
      case isFalse => cases h
      case isTrue hnewer =>
        cases h
        refine ⟨signed_of_verifySignature hverify fun signature hsignature => ?_, version, hversion,
          hnewer⟩
        exact hunforged info signature hloads hsignature

/-- A bundle that is accepted matches the manifest. -/
lemma installSafe_of_checkFile {offer : Offer} {content : Bytes} {bundle : Bundle}
    (h : checkFile lib offer.info content.length content content = some bundle)
    (hoffer : OfferSafe lib signed offer) : InstallSafe lib signed offer bundle content := by
  unfold checkFile at h
  split at h
  case h_2 => cases h
  case h_1 size sha256 version hsize hsha256 hversion =>
    split at h
    case isFalse => cases h
    case isTrue htest =>
      split at h
      case h_1 => cases h
      case h_2 bundle' hbundle =>
        split at h
        case isFalse => cases h
        case isTrue hmatch =>
          cases h
          obtain ⟨hsigned, version', hversion', hnewer⟩ := hoffer
          obtain rfl : version = version' := Option.some.inj (hversion.symm.trans hversion')
          exact ⟨hsigned, ⟨size, hsize, htest.1⟩, ⟨sha256, hsha256, htest.2⟩, hbundle,
            hmatch.1, version, hversion, hmatch.2, hnewer⟩

/-! ### Whose file it is -/

/-- The thread still has the file, has handed it over, or could not remove it. -/
def DownloadPc.Keeps (path : ℕ) : DownloadPc → Prop
  | .receiving p _ _ | .received p _ _ | .cleanup p | .scheduled p | .removed p false => p = path
  | .starting | .failed | .removed _ true => False

/-- The file is open, or about to be tested. -/
def DownloadPc.Reads (path total : ℕ) (hashed : Bytes) (pc : DownloadPc) : Prop :=
  pc = .receiving path total hashed ∨ pc = .received path total hashed

/-- Every file has one thread, and what is to be installed is what was tested. -/
structure UpdateInv (lib : Library) (signed : Set Bytes) (s : DownloadsState) : Prop where
  offers : ∀ offer ∈ s.offers, OfferSafe lib signed offer
  downloads : ∀ d ∈ s.downloads, OfferSafe lib signed d.offer
  lt : ∀ d ∈ s.downloads, ∀ path ∈ d.pc.path?, path < s.files.length
  owner : ∀ (i j : ℕ) (d d' : Download), s.downloads[i]? = some d → s.downloads[j]? = some d' →
    ∀ path ∈ d.pc.path?, path ∈ d'.pc.path? → i = j
  present : ∀ d ∈ s.downloads, ∀ path total hashed, d.pc.Reads path total hashed →
    s.files[path]? = some (some hashed) ∧ total = hashed.length
  scheduled : ∀ call ∈ s.installs, ∃ (i : ℕ) (d : Download), s.downloads[i]? = some d ∧
    d.pc = .scheduled call.path
  nodup : (s.installs.map (·.path)).Nodup
  installs : ∀ call ∈ s.installs, ∃ content, s.files[call.path]? = some (some content) ∧
    InstallSafe lib signed call.offer call.bundle content
  kept : ∀ path content, s.files[path]? = some (some content) →
    ∃ d ∈ s.downloads, d.pc.Keeps path

lemma updateInv_noDownloads : UpdateInv lib signed noDownloads where
  offers := nofun
  downloads := nofun
  lt := nofun
  owner := nofun
  present := nofun
  scheduled := nofun
  nodup := List.nodup_nil
  installs := nofun
  kept := nofun

lemma DownloadPc.Keeps.mem_path {path : ℕ} {pc : DownloadPc} (h : pc.Keeps path) :
    path ∈ pc.path? := by
  cases pc with
  | removed p gone =>
      cases gone with
      | false => exact congrArg some h
      | true => exact h.elim
  | starting => exact h.elim
  | failed => exact h.elim
  | _ => exact congrArg some h

lemma DownloadPc.Reads.mem_path {path total : ℕ} {hashed : Bytes} {pc : DownloadPc}
    (h : pc.Reads path total hashed) : path ∈ pc.path? := by
  rcases h with rfl | rfl <;> rfl

/-- The thread has done with the content of its file. -/
def DownloadPc.Past : DownloadPc → Prop
  | .cleanup _ | .scheduled _ | .removed _ _ => True
  | .starting | .failed | .receiving _ _ _ | .received _ _ _ => False

lemma DownloadPc.Past.not_reads {path total : ℕ} {hashed : Bytes} {pc : DownloadPc}
    (h : pc.Past) : ¬ pc.Reads path total hashed := by
  rintro (rfl | rfl)
  · exact h
  · exact h

lemma UpdateInv.content_eq (h : UpdateInv lib signed s) {d : Download} {path total : ℕ}
    {hashed : Bytes} (hd : d ∈ s.downloads) (hreads : d.pc.Reads path total hashed) :
    s.content path = hashed := by
  rw [DownloadsState.content, (h.present d hd path total hashed hreads).1]
  rfl

/-- The state after thread `i` has gone on, with its old file or a new one. -/
lemma UpdateInv.goTo (h : UpdateInv lib signed s) {i : ℕ} {d : Download} {pc : DownloadPc}
    {files : List (Option Bytes)} (hd : s.downloads[i]? = some d)
    (hnot : ∀ p, d.pc ≠ .scheduled p)
    (hlength : s.files.length ≤ files.length) (hlt : ∀ p ∈ pc.path?, p < files.length)
    (hown : ∀ p ∈ pc.path?, p ∈ d.pc.path? ∨ s.files.length ≤ p)
    (hpath : ∀ p ∈ d.pc.path?, p ∈ pc.path?)
    (hothers : ∀ p ∉ pc.path?, files[p]? = s.files[p]?)
    (hreads : ∀ p total hashed, pc.Reads p total hashed →
      files[p]? = some (some hashed) ∧ total = hashed.length)
    (hkeeps : ∀ p ∈ pc.path?, ∀ content, files[p]? = some (some content) → pc.Keeps p) :
    UpdateInv lib signed (s.goTo i d pc files) := by
  have hi := (List.getElem?_eq_some_iff.1 hd).1
  have hmem : d ∈ s.downloads := List.mem_of_getElem? hd
  have hself : (s.goTo i d pc files).downloads[i]? = some { d with pc := pc } :=
    List.getElem?_set_self hi
  have hset {j : ℕ} (hij : i ≠ j) : (s.goTo i d pc files).downloads[j]? = s.downloads[j]? :=
    List.getElem?_set_ne hij
  -- another thread has another file
  have hother {j : ℕ} {d' : Download} {p : ℕ} (hd' : s.downloads[j]? = some d') (hij : i ≠ j)
      (hp : p ∈ d'.pc.path?) : p ∉ pc.path? := by
    intro hp'
    rcases hown p hp' with hp' | hp'
    · exact hij (h.owner i j d d' hd hd' p hp' hp)
    · exact absurd (h.lt d' (List.mem_of_getElem? hd') p hp) (by omega)
  have hcall {call : InstallCall} (hcall : call ∈ s.installs) :
      ∃ (j : ℕ) (d' : Download), i ≠ j ∧ s.downloads[j]? = some d' ∧
        d'.pc = .scheduled call.path := by
    obtain ⟨j, d', hd', hscheduled⟩ := h.scheduled call hcall
    refine ⟨j, d', ?_, hd', hscheduled⟩
    rintro rfl
    obtain rfl : d = d' := Option.some.inj (hd.symm.trans hd')
    exact hnot _ hscheduled
  refine ⟨h.offers, ?_, ?_, ?_, ?_, ?_, h.nodup, ?_, ?_⟩
  · intro d' hd'
    rcases List.mem_or_eq_of_mem_set hd' with hd' | rfl
    · exact h.downloads d' hd'
    · exact h.downloads d hmem
  · intro d' hd' p hp
    rcases List.mem_or_eq_of_mem_set hd' with hd' | rfl
    · exact (h.lt d' hd' p hp).trans_le hlength
    · exact hlt p hp
  · intro j k d₁ d₂ hd₁ hd₂ p hp₁ hp₂
    by_cases hij : i = j
    · subst hij
      by_contra hne
      rw [hself] at hd₁
      cases hd₁
      rw [hset hne] at hd₂
      exact hother hd₂ hne hp₂ hp₁
    · rw [hset hij] at hd₁
      by_cases hik : i = k
      · subst hik
        rw [hself] at hd₂
        cases hd₂
        exact absurd hp₂ (hother hd₁ hij hp₁)
      · rw [hset hik] at hd₂
        exact h.owner j k d₁ d₂ hd₁ hd₂ p hp₁ hp₂
  · intro d' hd' p total hashed hp
    obtain ⟨j, hj⟩ := List.mem_iff_getElem?.1 hd'
    by_cases hij : i = j
    · subst hij
      rw [hself] at hj
      cases hj
      exact hreads p total hashed hp
    · rw [hset hij] at hj
      rw [show (s.goTo i d pc files).files = files from rfl,
        hothers p (hother hj hij hp.mem_path)]
      exact h.present d' (List.mem_of_getElem? hj) p total hashed hp
  · intro call hmem'
    obtain ⟨j, d', hij, hd', hscheduled⟩ := hcall hmem'
    exact ⟨j, d', (hset hij).trans hd', hscheduled⟩
  · intro call hmem'
    obtain ⟨j, d', hij, hd', hscheduled⟩ := hcall hmem'
    obtain ⟨content, hcontent, hsafe⟩ := h.installs call hmem'
    have hnot' := hother hd' hij (p := call.path) (by rw [hscheduled]; rfl)
    exact ⟨content, (hothers _ hnot').trans hcontent, hsafe⟩
  · intro p content hcontent
    by_cases hp : p ∈ pc.path?
    · exact ⟨{ d with pc := pc }, List.mem_of_getElem? hself, hkeeps p hp content hcontent⟩
    · obtain ⟨d', hd', hkeep⟩ := h.kept p content ((hothers p hp).symm.trans hcontent)
      obtain ⟨j, hj⟩ := List.mem_iff_getElem?.1 hd'
      have hij : i ≠ j := by
        rintro rfl
        obtain rfl : d = d' := Option.some.inj (hd.symm.trans hj)
        exact hp (hpath p hkeep.mem_path)
      exact ⟨d', List.mem_of_getElem? ((hset hij).trans hj), hkeep⟩

/-- The thread goes on with its file. -/
lemma UpdateInv.goTo_self (h : UpdateInv lib signed s) {i path : ℕ} {d : Download} {pc : DownloadPc}
    {file : Option Bytes} (hd : s.downloads[i]? = some d) (hnot : ∀ p, d.pc ≠ .scheduled p)
    (hpath : d.pc.path? = some path) (hpc : pc.path? = some path)
    (hreads : ∀ total hashed, pc.Reads path total hashed →
      file = some hashed ∧ total = hashed.length)
    (hkeeps : file = none ∨ pc.Keeps path) :
    UpdateInv lib signed (s.goTo i d pc (s.files.set path file)) := by
  have hlt : path < s.files.length := h.lt d (List.mem_of_getElem? hd) path hpath
  have hget : (s.files.set path file)[path]? = some file := List.getElem?_set_self hlt
  have heq {p : ℕ} (hp : p ∈ pc.path?) : p = path := Option.some.inj (hp.symm.trans hpc)
  refine h.goTo hd hnot ?_ ?_ ?_ ?_ ?_ ?_ ?_
  · rw [List.length_set]
  · intro p hp
    rw [List.length_set, heq hp]
    exact hlt
  · intro p hp
    exact Or.inl (heq hp ▸ hpath)
  · intro p hp
    rw [hpath] at hp
    exact hpc.trans hp
  · intro p hp
    refine List.getElem?_set_ne ?_
    rintro rfl
    exact hp hpc
  · intro p total hashed hp
    obtain rfl := heq hp.mem_path
    obtain ⟨hfile, htotal⟩ := hreads total hashed hp
    exact ⟨hget.trans (congrArg some hfile), htotal⟩
  · intro p hp content hcontent
    obtain rfl := heq hp
    rcases hkeeps with hnone | hkeeps
    · rw [hget, hnone] at hcontent
      cases hcontent
    · exact hkeeps

/-- The thread goes on, and no file changes. -/
lemma UpdateInv.goTo_files (h : UpdateInv lib signed s) {i path : ℕ} {d : Download}
    {pc : DownloadPc} (hd : s.downloads[i]? = some d) (hnot : ∀ p, d.pc ≠ .scheduled p)
    (hpath : d.pc.path? = some path) (hpc : pc.path? = some path)
    (hreads : ∀ total hashed, pc.Reads path total hashed → d.pc.Reads path total hashed)
    (hkeeps : pc.Keeps path) : UpdateInv lib signed (s.goTo i d pc s.files) := by
  have hlt : path < s.files.length := h.lt d (List.mem_of_getElem? hd) path hpath
  rw [show s.files = s.files.set path s.files[path] from (List.set_getElem_self hlt).symm]
  refine h.goTo_self hd hnot hpath hpc ?_ (Or.inr hkeeps)
  intro total hashed hreads'
  have hfile := h.present d (List.mem_of_getElem? hd) path total hashed (hreads _ _ hreads')
  rw [List.getElem?_eq_getElem hlt] at hfile
  exact ⟨Option.some.inj hfile.1, hfile.2⟩

/-- The thread has done with the content of its file, which stays. -/
lemma UpdateInv.goTo_past (h : UpdateInv lib signed s) {i path : ℕ} {d : Download}
    {pc : DownloadPc} (hd : s.downloads[i]? = some d) (hnot : ∀ p, d.pc ≠ .scheduled p)
    (hpath : d.pc.path? = some path) (hpc : pc.path? = some path) (hpast : pc.Past)
    (hkeeps : pc.Keeps path) : UpdateInv lib signed (s.goTo i d pc s.files) :=
  h.goTo_files hd hnot hpath hpc (fun _ _ hreads => absurd hreads hpast.not_reads) hkeeps

/-- The call of `_install` is posted. -/
lemma UpdateInv.post (h : UpdateInv lib signed s) {i : ℕ} {d : Download} {call : InstallCall}
    {content : Bytes} (hd : s.downloads[i]? = some d) (hscheduled : d.pc = .scheduled call.path)
    (hnew : call.path ∉ s.installs.map (·.path))
    (hfile : s.files[call.path]? = some (some content))
    (hsafe : InstallSafe lib signed call.offer call.bundle content) :
    UpdateInv lib signed { s with installs := s.installs ++ [call] } := by
  refine ⟨h.offers, h.downloads, h.lt, h.owner, h.present, ?_, ?_, ?_, h.kept⟩
  · intro call' hcall
    rcases List.mem_append.1 hcall with hcall | hcall
    · exact h.scheduled call' hcall
    · rw [List.mem_singleton.1 hcall]
      exact ⟨i, d, hd, hscheduled⟩
  · rw [List.map_append]
    refine List.nodup_append.2 ⟨h.nodup, List.nodup_singleton _, ?_⟩
    rintro p hp _ hp' rfl
    rw [List.map_singleton, List.mem_singleton] at hp'
    exact hnew (hp' ▸ hp)
  · intro call' hcall
    rcases List.mem_append.1 hcall with hcall | hcall
    · exact h.installs call' hcall
    · rw [List.mem_singleton.1 hcall]
      exact ⟨content, hfile, hsafe⟩

/-! ### A step -/

/-- A thread makes its temporary file, whose number is new. -/
lemma UpdateInv.create (h : UpdateInv lib signed s) {i : ℕ} {d : Download}
    (hd : s.downloads[i]? = some d) (hnot : ∀ p, d.pc ≠ .scheduled p)
    (hnone : d.pc.path? = none) :
    UpdateInv lib signed
      (s.goTo i d (.receiving s.files.length 0 []) (s.files ++ [some []])) := by
  have heq {p : ℕ} (hp : p ∈ (DownloadPc.receiving s.files.length 0 []).path?) :
      s.files.length = p := Option.some.inj hp
  refine h.goTo hd hnot ?_ ?_ ?_ ?_ ?_ ?_ ?_
  · rw [List.length_append]
    exact Nat.le_add_right _ _
  · intro p hp
    rw [← heq hp, List.length_append]
    exact Nat.lt_succ_self _
  · intro p hp
    exact Or.inr (heq hp).le
  · rw [hnone]
    exact nofun
  · intro p hp
    have hne : p ≠ s.files.length := by
      rintro rfl
      exact hp rfl
    rcases Nat.lt_or_gt_of_ne hne with hlt | hgt
    · exact List.getElem?_append_left hlt
    · rw [List.getElem?_eq_none (by simpa using hgt), List.getElem?_eq_none hgt.le]
  · intro p total hashed hp
    rcases hp with hp | hp <;> cases hp
    exact ⟨List.getElem?_concat_length, rfl⟩
  · intro p hp content _
    exact heq hp

/-- No call has been posted for the file of a thread that has not scheduled one. -/
lemma UpdateInv.not_posted (h : UpdateInv lib signed s) {i : ℕ} {d : Download} {path : ℕ}
    (hd : s.downloads[i]? = some d) (hnot : ∀ p, d.pc ≠ .scheduled p)
    (hpath : d.pc.path? = some path) : path ∉ s.installs.map (·.path) := by
  intro hold
  obtain ⟨call, hcall, heq⟩ := List.mem_map.1 hold
  obtain ⟨j, d', hd', hscheduled⟩ := h.scheduled call hcall
  have hpath' : d'.pc.path? = some path := by
    rw [hscheduled]
    exact congrArg some heq
  obtain rfl := h.owner i j d d' hd hd' path hpath hpath'
  obtain rfl : d = d' := Option.some.inj (hd.symm.trans hd')
  exact hnot _ hscheduled

/-- A thread tests its file, and posts the call of `_install` if the bundle is accepted. -/
lemma UpdateInv.test (h : UpdateInv lib signed s) {i path total : ℕ} {d : Download}
    {hashed : Bytes} {j : ℕ} {posts : Bool} (hd : s.downloads[i]? = some d)
    (hpc : d.pc = .received path total hashed)
    (ht : downloadStep lib s i d (.test j posts) = some t) : UpdateInv lib signed t := by
  simp only [downloadStep, hpc] at ht
  have hmem : d ∈ s.downloads := List.mem_of_getElem? hd
  have hreads : d.pc.Reads path total hashed := Or.inr hpc
  have hnot : ∀ p, d.pc ≠ .scheduled p := by rw [hpc]; exact nofun
  have hpath : d.pc.path? = some path := by rw [hpc]; rfl
  have hcleanup : UpdateInv lib signed (s.goTo i d (.cleanup path) s.files) :=
    h.goTo_past hd hnot hpath rfl trivial rfl
  rw [h.content_eq hmem hreads] at ht
  obtain ⟨hfile, htotal⟩ := h.present d hmem path total hashed hreads
  split at ht
  case h_2 => cases ht; exact hcleanup
  case h_1 bundle hbundle =>
    cases posts with
    | false => cases ht; exact hcleanup
    | true =>
        cases ht
        have hgone : UpdateInv lib signed (s.goTo i d (.scheduled path) s.files) :=
          h.goTo_past hd hnot hpath rfl trivial rfl
        have hsafe : InstallSafe lib signed d.offer bundle hashed :=
          installSafe_of_checkFile (htotal ▸ hbundle) (h.downloads d hmem)
        have hlt := (List.getElem?_eq_some_iff.1 hd).1
        let call : InstallCall := ⟨bundle, path, d.offer⟩
        have hnew : call.path ∉ s.installs.map (·.path) := h.not_posted hd hnot hpath
        exact hgone.post (List.getElem?_set_self hlt) rfl hnew hfile hsafe

/-- A thread keeps the invariant. -/
lemma UpdateInv.downloadStep (h : UpdateInv lib signed s) {i : ℕ} {d : Download}
    {a : DownloadsAction} (hd : s.downloads[i]? = some d)
    (ht : downloadStep lib s i d a = some t) : UpdateInv lib signed t := by
  have hmem : d ∈ s.downloads := List.mem_of_getElem? hd
  cases a with
  | check response installed => cases ht
  | answer j yes => cases ht
  | install k ok => cases ht
  | create j ok =>
      rw [Updater.downloadStep] at ht
      split at ht
      case isFalse => cases ht
      case isTrue hstarting =>
        have hnone : d.pc.path? = none := by rw [hstarting]; rfl
        have hnot : ∀ p, d.pc ≠ .scheduled p := by rw [hstarting]; exact nofun
        cases ht
        cases ok with
        | false =>
            refine h.goTo hd hnot (Nat.le_refl _) nofun nofun ?_ (fun _ _ => rfl) nofun nofun
            rw [hnone]
            exact nofun
        | true => exact h.create hd hnot hnone
  | block j data =>
      rw [Updater.downloadStep] at ht
      split at ht
      case h_2 => cases ht
      case h_1 path total hashed hpc =>
        split at ht
        · cases ht
        cases ht
        have hreads : d.pc.Reads path total hashed := Or.inl hpc
        refine h.goTo_self hd (by rw [hpc]; exact nofun) (by rw [hpc]; rfl) rfl ?_ (Or.inr rfl)
        intro total' hashed' hreads'
        rcases hreads' with hreads' | hreads' <;> cases hreads'
        rw [h.content_eq hmem hreads, (h.present d hmem _ _ _ hreads).2, List.length_append]
        exact ⟨rfl, rfl⟩
  | close j =>
      rw [Updater.downloadStep] at ht
      split at ht
      case h_2 => cases ht
      case h_1 path total hashed hpc =>
        cases ht
        refine h.goTo_files hd (by rw [hpc]; exact nofun) (by rw [hpc]; rfl) rfl ?_ rfl
        intro total' hashed' hreads'
        rcases hreads' with hreads' | hreads' <;> cases hreads'
        exact Or.inl hpc
  | fail j written =>
      rw [Updater.downloadStep] at ht
      split at ht
      case h_2 => cases ht
      case h_1 path total hashed hpc =>
        cases ht
        exact h.goTo_self hd (by rw [hpc]; exact nofun) (by rw [hpc]; rfl) rfl
          (fun _ _ hreads => absurd hreads (DownloadPc.Past.not_reads trivial)) (Or.inr rfl)
  | test j posts =>
      have hstep := ht
      rw [Updater.downloadStep] at ht
      split at ht
      case h_2 => cases ht
      case h_1 path total hashed hpc => exact h.test hd hpc hstep
  | remove j ok =>
      rw [Updater.downloadStep] at ht
      split at ht
      case h_2 => cases ht
      case h_1 path hpc =>
        have hnot : ∀ p, d.pc ≠ .scheduled p := by rw [hpc]; exact nofun
        have hpath : d.pc.path? = some path := by rw [hpc]; rfl
        cases ht
        cases ok with
        | false =>
            exact h.goTo_past hd hnot hpath rfl trivial rfl
        | true =>
            exact h.goTo_self hd hnot hpath rfl
              (fun _ _ hreads => absurd hreads (DownloadPc.Past.not_reads trivial)) (Or.inl rfl)

/-- A download begins. -/
lemma UpdateInv.begin (h : UpdateInv lib signed s) {offer : Offer}
    (hoffer : OfferSafe lib signed offer) :
    UpdateInv lib signed { s with downloads := s.downloads ++ [⟨offer, .starting⟩] } := by
  have hold {j : ℕ} {d : Download} {p : ℕ}
      (hd : (s.downloads ++ [⟨offer, .starting⟩])[j]? = some d) (hp : p ∈ d.pc.path?) :
      s.downloads[j]? = some d := by
    rcases Nat.lt_or_ge j s.downloads.length with hlt | hge
    · rwa [List.getElem?_append_left hlt] at hd
    · rw [List.getElem?_append_right hge] at hd
      rw [List.mem_singleton.1 (List.mem_of_getElem? hd)] at hp
      cases hp
  refine ⟨h.offers, ?_, ?_, ?_, ?_, ?_, h.nodup, h.installs, ?_⟩
  · intro d hd
    rcases List.mem_append.1 hd with hd | hd
    · exact h.downloads d hd
    · rw [List.mem_singleton.1 hd]
      exact hoffer
  · intro d hd p hp
    obtain ⟨j, hj⟩ := List.mem_iff_getElem?.1 hd
    exact h.lt d (List.mem_of_getElem? (hold hj hp)) p hp
  · intro j k d d' hd hd' p hp hp'
    exact h.owner j k d d' (hold hd hp) (hold hd' hp') p hp hp'
  · intro d hd p total hashed hp
    obtain ⟨j, hj⟩ := List.mem_iff_getElem?.1 hd
    exact h.present d (List.mem_of_getElem? (hold hj hp.mem_path)) p total hashed hp
  · intro call hcall
    obtain ⟨j, d, hd, hscheduled⟩ := h.scheduled call hcall
    refine ⟨j, d, ?_, hscheduled⟩
    rw [List.getElem?_append_left (List.getElem?_eq_some_iff.1 hd).1]
    exact hd
  · intro p content hcontent
    obtain ⟨d, hd, hkeeps⟩ := h.kept p content hcontent
    exact ⟨d, List.mem_append_left _ hd, hkeeps⟩

/-- `_install` has run. -/
lemma UpdateInv.install (h : UpdateInv lib signed s) {k : ℕ} {call : InstallCall} (ok : Bool)
    (hk : s.installs[k]? = some call) :
    UpdateInv lib signed { s with
      installs := s.installs.eraseIdx k
      files := if ok then s.files.set call.path none else s.files } := by
  have hother {p : ℕ} (hp : call.path ≠ p) :
      (if ok then s.files.set call.path none else s.files)[p]? = s.files[p]? := by
    split
    · exact List.getElem?_set_ne hp
    · rfl
  obtain ⟨i, d, hd, hscheduled⟩ := h.scheduled call (List.mem_of_getElem? hk)
  have hpath : d.pc.path? = some call.path := by rw [hscheduled]; rfl
  refine ⟨h.offers, h.downloads, ?_, h.owner, ?_, ?_, ?_, ?_, ?_⟩
  · intro d' hd' p hp
    have hlt := h.lt d' hd' p hp
    show p < (if ok then s.files.set call.path none else s.files).length
    split
    · rw [List.length_set]
      exact hlt
    · exact hlt
  · intro d' hd' p total hashed hp
    -- the thread of this call is over
    refine (congrArg (· = some (some hashed) ∧ total = hashed.length) (hother ?_)).mpr
      (h.present d' hd' p total hashed hp)
    rintro rfl
    obtain ⟨j, hj⟩ := List.mem_iff_getElem?.1 hd'
    obtain rfl := h.owner i j d d' hd hj call.path hpath hp.mem_path
    obtain rfl : d = d' := Option.some.inj (hd.symm.trans hj)
    rcases hp with hp | hp <;> rw [hscheduled] at hp <;> cases hp
  · intro call' hcall
    exact h.scheduled call' (List.mem_of_mem_eraseIdx hcall)
  · rw [← List.eraseIdx_map]
    exact h.nodup.sublist (List.eraseIdx_sublist _ _)
  · intro call' hcall
    obtain ⟨content, hcontent, hsafe⟩ := h.installs call' (List.mem_of_mem_eraseIdx hcall)
    refine ⟨content, (hother ?_).trans hcontent, hsafe⟩
    -- no other call has its file
    obtain ⟨m, hmk, hm⟩ := List.mem_eraseIdx_iff_getElem?.1 hcall
    intro heq
    refine hmk ((List.getElem?_inj ?_ h.nodup).1 ?_)
    · rw [List.length_map]
      exact (List.getElem?_eq_some_iff.1 hm).1
    · rw [List.getElem?_map, List.getElem?_map, hm, hk]
      exact congrArg some heq.symm
  · intro p content hcontent
    by_cases hp : call.path = p
    · exact ⟨d, List.mem_of_getElem? hd, hscheduled ▸ hp⟩
    · exact h.kept p content ((hother hp).symm.trans hcontent)

/-- A step keeps the invariant if its response has no forged signature. -/
lemma UpdateInv.downloadsStep (h : UpdateInv lib signed s) {a : DownloadsAction}
    (ha : Unforged lib key signed a) (ht : downloadsStep lib key s a = some t) :
    UpdateInv lib signed t := by
  have hthread {i : ℕ} (ht : (s.downloads[i]?.bind fun d => Updater.downloadStep lib s i d a) =
      some t) : UpdateInv lib signed t := by
    obtain ⟨d, hd, ht⟩ := Option.bind_eq_some_iff.1 ht
    exact h.downloadStep hd ht
  cases a with
  | check response installed =>
      rw [Updater.downloadsStep] at ht
      split at ht
      case h_2 => cases ht; exact h
      case h_1 info hinfo =>
        cases ht
        refine ⟨?_, h.downloads, h.lt, h.owner, h.present, h.scheduled, h.nodup, h.installs,
          h.kept⟩
        intro offer hoffer
        rcases List.mem_append.1 hoffer with hoffer | hoffer
        · exact h.offers offer hoffer
        · rw [List.mem_singleton.1 hoffer]
          exact offerSafe_of_checkManifest hinfo ha
  | answer i yes =>
      obtain ⟨offer, hi, rfl⟩ := Option.map_eq_some_iff.1 ht
      have hless : UpdateInv lib signed { s with offers := s.offers.eraseIdx i } :=
        ⟨fun offer' hoffer => h.offers offer' (List.mem_of_mem_eraseIdx hoffer), h.downloads, h.lt,
          h.owner, h.present, h.scheduled, h.nodup, h.installs, h.kept⟩
      cases yes with
      | false => exact hless
      | true => exact hless.begin (h.offers offer (List.mem_of_getElem? hi))
  | install k ok =>
      obtain ⟨call, hk, rfl⟩ := Option.map_eq_some_iff.1 ht
      exact h.install ok hk
  | create i ok => exact hthread ht
  | block i data => exact hthread ht
  | close i => exact hthread ht
  | fail i written => exact hthread ht
  | test i posts => exact hthread ht
  | remove i ok => exact hthread ht

/-! ### Runs -/

/-- What the run says of where the threads are. -/
structure TraceInv (lib : Library) (key : PublicKey) (done : List DownloadsAction)
    (s : DownloadsState) : Prop where
  run : run (downloadsStep lib key) noDownloads done = some s
  scheduled : ∀ (i : ℕ) (d : Download) (path : ℕ), s.downloads[i]? = some d →
    d.pc = .scheduled path → Posted lib key done path
  failed : ∀ (i : ℕ) (d : Download) (path : ℕ), s.downloads[i]? = some d →
    d.pc = .removed path false → .remove i false ∈ done

lemma Posted.mono {as bs : List DownloadsAction} {path : ℕ} (h : Posted lib key as path)
    (hinit : as <+: bs) : Posted lib key bs path := by
  obtain ⟨before, u, hbefore, hu, hpath⟩ := h
  exact ⟨before, u, hbefore.trans hinit, hu, hpath⟩

/-- Where a step of the thread takes it: it has scheduled a call only with the call posted, and
given a file up only with `os.remove` failed. -/
lemma downloadStep_downloads {i : ℕ} {d : Download} {a : DownloadsAction}
    (ha : a.thread? = some i) (ht : downloadStep lib s i d a = some t) :
    ∃ pc, t.downloads = s.downloads.set i { d with pc := pc } ∧
      (∀ path, pc = .scheduled path → path ∈ t.installs.map (·.path)) ∧
      ∀ path, pc = .removed path false → a = .remove i false := by
  cases a with
  | check response installed => cases ht
  | answer j yes => cases ht
  | install k ok => cases ht
  | create j ok =>
      rw [downloadStep] at ht
      split at ht
      · cases ok <;> cases ht <;> exact ⟨_, rfl, nofun, nofun⟩
      · cases ht
  | block j data =>
      rw [downloadStep] at ht
      split at ht
      · split at ht
        · cases ht
        · cases ht
          exact ⟨_, rfl, nofun, nofun⟩
      · cases ht
  | close j =>
      rw [downloadStep] at ht
      split at ht
      · cases ht
        exact ⟨_, rfl, nofun, nofun⟩
      · cases ht
  | fail j written =>
      rw [downloadStep] at ht
      split at ht
      · cases ht
        exact ⟨_, rfl, nofun, nofun⟩
      · cases ht
  | test j posts =>
      rw [downloadStep] at ht
      split at ht
      · split at ht
        · cases posts with
          | false => cases ht; exact ⟨_, rfl, nofun, nofun⟩
          | true =>
              cases ht
              refine ⟨_, rfl, ?_, nofun⟩
              rintro path ⟨⟩
              simp
        · cases ht
          exact ⟨_, rfl, nofun, nofun⟩
      · cases ht
  | remove j ok =>
      rw [downloadStep] at ht
      split at ht
      · cases ht
        refine ⟨_, rfl, nofun, ?_⟩
        rintro path ⟨⟩
        rw [Option.some.inj ha]
      · cases ht

lemma TraceInv.step {done : List DownloadsAction} {a : DownloadsAction}
    (h : TraceInv lib key done s) (ht : downloadsStep lib key s a = some t) :
    TraceInv lib key (done ++ [a]) t := by
  have hrun : StepSystem.run (downloadsStep lib key) noDownloads (done ++ [a]) = some t :=
    run_append.2 ⟨s, h.run, run_cons_eq_some.2 ⟨t, ht, rfl⟩⟩
  have hprefix : done <+: done ++ [a] := List.prefix_append _ _
  -- a thread that is where it was
  have hold {j : ℕ} {d : Download} (hd : s.downloads[j]? = some d) :
      (∀ path, d.pc = .scheduled path → Posted lib key (done ++ [a]) path) ∧
        ∀ path, d.pc = .removed path false → .remove j false ∈ done ++ [a] :=
    ⟨fun path hpc => (h.scheduled j d path hd hpc).mono hprefix,
      fun path hpc => List.mem_append_left _ (h.failed j d path hd hpc)⟩
  suffices hall : ∀ (j : ℕ) (d : Download), t.downloads[j]? = some d →
      (∀ path, d.pc = .scheduled path → Posted lib key (done ++ [a]) path) ∧
        ∀ path, d.pc = .removed path false → .remove j false ∈ done ++ [a] from
    ⟨hrun, fun j d path hd => (hall j d hd).1 path, fun j d path hd => (hall j d hd).2 path⟩
  have hthread {i : ℕ} (ha : a.thread? = some i)
      (ht : (s.downloads[i]?.bind fun d => downloadStep lib s i d a) = some t) :
      ∀ (j : ℕ) (d : Download), t.downloads[j]? = some d →
        (∀ path, d.pc = .scheduled path → Posted lib key (done ++ [a]) path) ∧
          ∀ path, d.pc = .removed path false → .remove j false ∈ done ++ [a] := by
    obtain ⟨d, hd, ht⟩ := Option.bind_eq_some_iff.1 ht
    obtain ⟨pc, hdownloads, hscheduled, hfailed⟩ := downloadStep_downloads ha ht
    intro j d' hd'
    rw [hdownloads] at hd'
    by_cases hij : i = j
    · subst hij
      rw [List.getElem?_set_self (List.getElem?_eq_some_iff.1 hd).1] at hd'
      cases hd'
      refine ⟨fun path hpc => ⟨_, t, List.prefix_rfl, hrun, hscheduled path hpc⟩, fun path hpc => ?_⟩
      rw [hfailed path hpc]
      exact List.mem_append_right _ (List.mem_singleton_self _)
    · rw [List.getElem?_set_ne hij] at hd'
      exact hold hd'
  cases a with
  | check response installed =>
      rw [downloadsStep] at ht
      split at ht <;> cases ht <;> exact fun j d hd => hold hd
  | answer i yes =>
      obtain ⟨offer, hi, rfl⟩ := Option.map_eq_some_iff.1 ht
      intro j d hd
      cases yes with
      | false => exact hold hd
      | true =>
          rcases Nat.lt_or_ge j s.downloads.length with hlt | hge
          · exact hold ((List.getElem?_append_left hlt).symm.trans hd)
          · -- the new thread
            have hnew := (List.getElem?_append_right hge).symm.trans hd
            obtain rfl := List.mem_singleton.1 (List.mem_of_getElem? hnew)
            exact ⟨nofun, nofun⟩
  | install k ok =>
      obtain ⟨call, hk, rfl⟩ := Option.map_eq_some_iff.1 ht
      exact fun j d hd => hold hd
  | create i ok => exact hthread rfl ht
  | block i data => exact hthread rfl ht
  | close i => exact hthread rfl ht
  | fail i written => exact hthread rfl ht
  | test i posts => exact hthread rfl ht
  | remove i ok => exact hthread rfl ht

/-- A thread that is at its end has scheduled a call, or has made no file, or has come to
`os.remove`. -/
lemma Ended.past {i : ℕ} {d : Download} (h : Ended lib key s i) (hd : s.downloads[i]? = some d) :
    (∃ path, d.pc = .scheduled path) ∨ d.pc = .failed ∨ ∃ path gone, d.pc = .removed path gone := by
  have hnone (a : DownloadsAction) (ha : a.thread? = some i)
      (hstep : downloadsStep lib key s a = s.downloads[i]?.bind fun d => downloadStep lib s i d a) :
      downloadStep lib s i d a = none := by
    have hend := h a ha
    rw [hstep, hd] at hend
    exact hend
  cases hpc : d.pc with
  | starting => exact absurd (hnone (.create i false) rfl rfl) (by simp [downloadStep, hpc])
  | receiving path total hashed =>
      exact absurd (hnone (.close i) rfl rfl) (by simp [downloadStep, hpc])
  | received path total hashed =>
      refine absurd (hnone (.test i false) rfl rfl) ?_
      simp only [downloadStep, hpc]
      split <;> simp
  | cleanup path => exact absurd (hnone (.remove i false) rfl rfl) (by simp [downloadStep, hpc])
  | scheduled path => exact Or.inl ⟨path, rfl⟩
  | failed => exact Or.inr (Or.inl rfl)
  | removed path gone => exact Or.inr (Or.inr ⟨path, gone, rfl⟩)

lemma UpdateInv.updateSafe {as : List DownloadsAction} (h : UpdateInv lib signed s)
    (htrace : TraceInv lib key as s) : UpdateSafe lib key signed as s := by
  refine ⟨h.installs, fun path content hcontent => ?_, fun i d path hd hpath hended hposted => ?_⟩
  · obtain ⟨d, hd, hkeeps⟩ := h.kept path content hcontent
    obtain ⟨i, hi⟩ := List.mem_iff_getElem?.1 hd
    exact ⟨i, d, hi, hkeeps.mem_path⟩
  · have hlt : path < s.files.length := h.lt d (List.mem_of_getElem? hd) path hpath
    rw [List.getElem?_eq_getElem hlt]
    cases hfile : s.files[path] with
    | none => exact Or.inl rfl
    | some content =>
        -- the file is there, so its thread, which is this one, has kept it
        right
        obtain ⟨d', hd', hkeeps⟩ :=
          h.kept path content ((List.getElem?_eq_getElem hlt).trans (congrArg some hfile))
        obtain ⟨j, hj⟩ := List.mem_iff_getElem?.1 hd'
        obtain rfl := h.owner i j d d' hd hj path hpath hkeeps.mem_path
        obtain rfl : d = d' := Option.some.inj (hd.symm.trans hj)
        rcases hended.past hd with ⟨p, hpc⟩ | hpc | ⟨p, gone, hpc⟩
        · rw [hpc] at hpath
          obtain rfl : p = path := Option.some.inj hpath
          exact absurd (htrace.scheduled i d p hd hpc) hposted
        · rw [hpc] at hkeeps
          exact hkeeps.elim
        · rw [hpc] at hkeeps
          cases gone with
          | true => exact hkeeps.elim
          | false => exact htrace.failed i d p hd hpc

/-- **Only signed updates are installed.** In every run in which no response has a signature of a
payload that was never signed, what is to be installed is signed, newer and as its manifest says,
and a thread that ends without scheduling an installation has removed its temporary file, or has
tried in vain. -/
theorem updateSafe_of_run (lib : Library) (key : PublicKey) (signed : Set Bytes)
    (as : List DownloadsAction) (hunforged : ∀ a ∈ as, Unforged lib key signed a)
    (hrun : run (downloadsStep lib key) noDownloads as = some s) :
    UpdateSafe lib key signed as s := by
  have hboth := run_history_along
    (I := fun done s => UpdateInv lib signed s ∧ TraceInv lib key done s)
    (fun _ _ _ _ h ha ht => ⟨h.1.downloadsStep ha ht, h.2.step ht⟩)
    ⟨updateInv_noDownloads, rfl, nofun, nofun⟩ (along_of_forall hunforged _) hrun
  exact hboth.1.updateSafe hboth.2

/-! ### An update -/

/-- An add-on file: an archive with a `manifest.ini`. -/
def sampleFile : Bytes :=
  [80, 75, 3, 4, 20, 0, 0, 0, 0, 0, 0, 0, 33, 0, 130, 244, 87, 88, 80, 0, 0, 0, 80, 0, 0, 0, 12,
   0, 0, 0, 109, 97, 110, 105, 102, 101, 115, 116, 46, 105, 110, 105, 110, 97, 109, 101, 32, 61,
   32, 115, 97, 109, 115, 117, 110, 103, 84, 86, 86, 111, 105, 99, 101, 115, 10, 115, 117, 109,
   109, 97, 114, 121, 32, 61, 32, 34, 83, 97, 109, 115, 117, 110, 103, 32, 84, 86, 32, 86, 111,
   105, 99, 101, 115, 34, 10, 97, 117, 116, 104, 111, 114, 32, 61, 32, 34, 65, 34, 10, 118, 101,
   114, 115, 105, 111, 110, 32, 61, 32, 49, 46, 49, 10, 80, 75, 1, 2, 20, 0, 20, 0, 0, 0, 0, 0, 0,
   0, 33, 0, 130, 244, 87, 88, 80, 0, 0, 0, 80, 0, 0, 0, 12, 0, 0, 0, 0, 0, 0, 0, 0, 0, 0, 0, 0,
   0, 0, 0, 0, 0, 109, 97, 110, 105, 102, 101, 115, 116, 46, 105, 110, 105, 80, 75, 5, 6, 0, 0, 0,
   0, 1, 0, 1, 0, 58, 0, 0, 0, 122, 0, 0, 0, 0, 0]

/-- `hashlib.sha256(sampleFile).digest()` -/
def sampleFileDigest : Bytes :=
  [68, 161, 94, 162, 154, 135, 57, 104, 4, 164, 90, 207, 251, 194, 12, 143, 9, 4, 169, 188, 81,
   132, 239, 18, 27, 90, 102, 135, 172, 225, 91, 24]

def sampleSignatureText : PyString :=
  pyString "AAH//////////wAwMTANBglghkgBZQMEAgEFAAQgDiY9ImNJ3Pn0OO4Veos9CvTGT5j/YlRwPuyCiFhtZGI="

def sampleInfo : Json :=
  .obj [
    (pyString "sha256",
      .str (pyString "44a15ea29a87396804a45acffbc20c8f0904a9bc5184ef121b5a6687ace15b18")),
    (pyString "signature", .str sampleSignatureText),
    (pyString "size", .int 202),
    (pyString "url", .str (pyString "https://example.org/a.nvda-addon")),
    (pyString "version", .str (pyString "1.1"))]

def samplePayload : Bytes := (signedPayload sampleInfo).getD []

example : samplePayload =
    utf8 "\x7b\"sha256\":\"44a15ea29a87396804a45acffbc20c8f0904a9bc5184ef121b5a6687ace15b18\"," ++
      utf8 "\"size\":202,\"url\":\"https://example.org/a.nvda-addon\",\"version\":\"1.1\"\x7d" := by
  decide +kernel

/-- `hashlib.sha256(samplePayload).digest()` -/
def samplePayloadDigest : Bytes :=
  [14, 38, 61, 34, 99, 73, 220, 249, 244, 56, 238, 21, 122, 139, 61, 10, 244, 198, 79, 152, 255,
   98, 84, 112, 62, 236, 130, 136, 88, 109, 100, 98]

/-- A key whose exponent is one: a payload's encoding is its signature. -/
def sampleKey : PublicKey := ⟨2 ^ 496 - 1, 1⟩

def sampleSignature : Bytes :=
  [0x00, 0x01] ++ List.replicate 8 0xFF ++ [0x00] ++ (sha256DigestInfo ++ samplePayloadDigest)

def sampleLibrary : Library where
  loads bs := if bs = dumps sampleInfo then some sampleInfo else none
  repr _ := []
  parseInt s :=
    if s = pyString "0" then some 0 else if s = pyString "1" then some 1 else none
  truncate _ := none
  casefold s := s
  b64decode s := if s = sampleSignatureText then some sampleSignature else none
  sha256 bs :=
    if bs = samplePayload then samplePayloadDigest
    else if bs = sampleFile then sampleFileDigest else []
  openBundle content :=
    if content = sampleFile then some ⟨pyString "samsungTVVoices", pyString "1.1"⟩ else none

def updatedOnce : List DownloadsAction :=
  [.check (dumps sampleInfo) (pyString "1.0"), .answer 0 true, .create 0 true, .block 0 sampleFile,
    .close 0, .test 0 true]

/-- The key has signed this payload only. -/
lemma unforged_updatedOnce :
    ∀ a ∈ updatedOnce, Unforged sampleLibrary sampleKey {samplePayload} a := by
  have hlength : sampleKey.length = 62 := by decide +kernel
  have hencoded : sampleKey.encoded (signatureValue sampleSignature) = sampleSignature := by
    decide +kernel
  have hlt : (dumps sampleInfo).length ≤ 128 * 1024 := by decide +kernel
  have hloads : sampleLibrary.loads ((dumps sampleInfo).take (128 * 1024)) = some sampleInfo := by
    rw [List.take_of_length_le hlt]
    simp only [sampleLibrary, if_true]
  have hsignature : signatureOf sampleLibrary sampleKey sampleInfo = some sampleSignature := by
    decide +kernel
  have hcheck : Unforged sampleLibrary sampleKey {samplePayload}
      (.check (dumps sampleInfo) (pyString "1.0")) := by
    rintro info signature hinfo hsig ⟨payload, hpayload, heq⟩
    obtain rfl := Option.some.inj (hinfo.symm.trans hloads)
    obtain rfl := Option.some.inj (hsig.symm.trans hsignature)
    rw [hencoded, hlength] at heq
    -- another payload has another digest
    have hdigest : sampleLibrary.sha256 payload =
        if payload = sampleFile then sampleFileDigest else [] := if_neg hpayload
    rw [expectedEncoding, hdigest] at heq
    split at heq
    · exact absurd heq (by decide +kernel)
    · exact absurd heq (by decide +kernel)
  intro a ha
  simp only [updatedOnce, List.mem_cons, List.not_mem_nil, or_false] at ha
  rcases ha with rfl | rfl | rfl | rfl | rfl | rfl
  · exact hcheck
  all_goals trivial

theorem updateSafe_updatedOnce :
    ∃ s, run (downloadsStep sampleLibrary sampleKey) noDownloads updatedOnce = some s ∧
      s.installs.map (·.path) = [0] ∧
        UpdateSafe sampleLibrary sampleKey {samplePayload} updatedOnce s := by
  have hstate : (run (downloadsStep sampleLibrary sampleKey) noDownloads updatedOnce).map
      (fun s => s.installs.map (·.path)) = some [0] := by decide +kernel
  obtain ⟨s, hs, hinstalls⟩ := Option.map_eq_some_iff.1 hstate
  exact ⟨s, hs, hinstalls, updateSafe_of_run sampleLibrary sampleKey {samplePayload} updatedOnce
    unforged_updatedOnce hs⟩

end SamsungTVVoices.Updater
