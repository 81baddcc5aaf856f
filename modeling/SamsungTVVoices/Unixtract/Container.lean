/-
What a firmware container holds.

`Container.Describes` and `Container.Holds` say, without the steps of the extraction, that a file is
a container of some parts: it begins with headers, the first of them leads to a table of contents
that some key opens, and the sections hold the data of the items of that table, in their order.
`extracts_extractMsd11` is the correctness of the extraction against it, in both directions, for
files that have all that their headers list.

Of a file that is cut off nothing is said: `read_file` leaves zeros in place of what is missing, and
the extraction goes on with them.
-/
import SamsungTVVoices.Unixtract.Msd11

open FixedDigits
open SamsungTVVoices.Driver (PyString)
open SamsungTVVoices.Updater (pyString)

namespace SamsungTVVoices.Unixtract

/-! ### Headers -/

/-- The headers of a container. -/
structure Headers where
  magic : Bytes
  checksum : ℕ
  headerSize : ℕ
  sections : List SectionEntry
  headers : List HeaderEntry
deriving DecidableEq, Repr

def SectionEntry.encode (s : SectionEntry) : Bytes :=
  leBytes 4 s.index ++ leBytes 8 s.offset ++ leBytes 8 s.size

def SectionEntry.Valid (s : SectionEntry) : Prop :=
  s.index < 2 ^ 32 ∧ s.offset < 2 ^ 64 ∧ s.size < 2 ^ 64

instance : DecidablePred SectionEntry.Valid := fun _ => inferInstanceAs (Decidable (_ ∧ _))

def HeaderEntry.encode (h : HeaderEntry) : Bytes :=
  leBytes 8 h.offset ++ leBytes 4 h.size ++ encodeString h.nameBytes

def HeaderEntry.Valid (h : HeaderEntry) : Prop :=
  h.offset < 2 ^ 64 ∧ h.size < 2 ^ 32 ∧ h.nameBytes.length < 2 ^ 8

instance : DecidablePred HeaderEntry.Valid := fun _ => inferInstanceAs (Decidable (_ ∧ _))

namespace Headers

def encode (h : Headers) : Bytes :=
  h.magic ++ leBytes 4 h.checksum ++ leBytes 8 h.headerSize ++ leBytes 4 h.sections.length ++
    h.sections.flatMap SectionEntry.encode ++ leBytes 4 h.headers.length ++
    h.headers.flatMap HeaderEntry.encode

def Valid (h : Headers) : Prop :=
  h.magic.length = 6 ∧ h.checksum < 2 ^ 32 ∧ h.headerSize < 2 ^ 64 ∧
    h.sections.length < 2 ^ 32 ∧ h.headers.length < 2 ^ 32 ∧
    (∀ s ∈ h.sections, s.Valid) ∧ ∀ e ∈ h.headers, e.Valid

instance : DecidablePred Valid := fun _ => inferInstanceAs (Decidable (_ ∧ _))

end Headers

lemma reads_sectionEntry : Reader.Reads sectionEntry SectionEntry.Valid SectionEntry.encode id := by
  intro bs a rest
  simp only [sectionEntry, Reader.bind_eq_ok, u32_eq_ok, u64_eq_ok, Reader.pure_eq_ok]
  constructor
  · rintro ⟨index, _, ⟨hindex, rfl⟩, offset, _, ⟨hoffset, rfl⟩, size, _, ⟨hsize, rfl⟩, rfl, rfl⟩
    exact ⟨⟨index, offset, size⟩, ⟨hindex, hoffset, hsize⟩, rfl,
      by simp only [SectionEntry.encode, List.append_assoc]⟩
  · rintro ⟨s, ⟨hindex, hoffset, hsize⟩, rfl, rfl⟩
    exact ⟨s.index, _, ⟨hindex, by simp only [SectionEntry.encode, List.append_assoc]⟩, s.offset, _,
      ⟨hoffset, rfl⟩, s.size, _, ⟨hsize, rfl⟩, rfl, rfl⟩

lemma reads_headerEntry : Reader.Reads headerEntry HeaderEntry.Valid HeaderEntry.encode id := by
  intro bs a rest
  simp only [headerEntry, Reader.bind_eq_ok, u8_eq_ok, u32_eq_ok, u64_eq_ok, readExact_eq_ok,
    Reader.pure_eq_ok]
  constructor
  · rintro ⟨offset, _, ⟨hoffset, rfl⟩, size, _, ⟨hsize, rfl⟩, _, _, ⟨hlen, rfl⟩, name, _,
      ⟨rfl, rfl⟩, rfl, rfl⟩
    exact ⟨⟨offset, size, name⟩, ⟨hoffset, hsize, hlen⟩, rfl,
      by simp only [HeaderEntry.encode, encodeString, List.append_assoc]⟩
  · rintro ⟨h, ⟨hoffset, hsize, hlen⟩, rfl, rfl⟩
    exact ⟨h.offset, _,
      ⟨hoffset, by simp only [HeaderEntry.encode, encodeString, List.append_assoc]⟩, h.size, _,
      ⟨hsize, rfl⟩, _, _, ⟨hlen, rfl⟩, h.nameBytes, _, ⟨rfl, rfl⟩, rfl, rfl⟩

lemma foldl_push {α : Type} (xs : List α) : ∀ done : List α,
    xs.foldl (fun done x => done ++ [x]) done = done ++ xs := by
  induction xs with
  | nil => exact fun done => (List.append_nil done).symm
  | cons x xs ih =>
      intro done
      rw [List.foldl_cons, ih, List.append_assoc, List.singleton_append]

/-- What a loop that pushes reads. -/
lemma reads_readMany {α : Type} {read : BinReader α} {valid : α → Prop} {encode : α → Bytes}
    (h : Reader.Reads read valid encode id) (count : ℕ) : Reader.Reads (readMany read count)
      (fun xs : List α => xs.length = count ∧ ∀ x ∈ xs, valid x) (·.flatMap encode) id := by
  have hstep (done : List α) : Reader.Reads (do return done ++ [← read]) valid encode
      (fun x => done ++ [x]) := by
    intro bs a rest
    rw [Reader.bind_pure_eq_ok]
    constructor
    · rintro ⟨x, hread, rfl⟩
      obtain ⟨x, hx, rfl, rfl⟩ := (h _ _ _).1 hread
      exact ⟨x, hx, rfl, rfl⟩
    · rintro ⟨x, hx, rfl, rfl⟩
      exact ⟨x, (h _ _ _).2 ⟨x, hx, rfl, rfl⟩, rfl⟩
  intro bs a rest
  rw [readMany, Reader.Reads.iterate hstep]
  refine exists_congr fun xs => and_congr_right fun _ => and_congr_left fun _ => ?_
  dsimp only [id]
  rw [foldl_push, List.nil_append]

lemma fileHeader_eq_ok {n : ℕ} {bs rest : Bytes} : fileHeader bs = .ok (n, rest) ↔
    ∃ magic checksum headerSize, List.length magic = 6 ∧ checksum < 2 ^ 32 ∧ headerSize < 2 ^ 64 ∧
      n < 2 ^ 32 ∧
      bs = magic ++ leBytes 4 checksum ++ leBytes 8 headerSize ++ leBytes 4 n ++ rest := by
  simp only [fileHeader, Reader.bind_eq_ok, u32_eq_ok, u64_eq_ok, readExact_eq_ok]
  constructor
  · rintro ⟨magic, _, ⟨hmagic, rfl⟩, checksum, _, ⟨hchecksum, rfl⟩, size, _, ⟨hsize, rfl⟩, hn, rfl⟩
    exact ⟨magic, checksum, size, hmagic, hchecksum, hsize, hn,
      by simp only [List.append_assoc]⟩
  · rintro ⟨magic, checksum, size, hmagic, hchecksum, hsize, hn, rfl⟩
    exact ⟨magic, _, ⟨hmagic, by simp only [List.append_assoc]⟩, checksum, _, ⟨hchecksum, rfl⟩,
      size, _, ⟨hsize, rfl⟩, hn, rfl⟩

lemma reads_readHeaders : Reader.Reads readHeaders Headers.Valid Headers.encode
    (fun h => (h.sections, h.headers)) := by
  intro bs a rest
  rw [readHeaders]
  constructor
  · intro h
    obtain ⟨_, _, hfile, h₁⟩ := Reader.bind_eq_ok.1 h
    obtain ⟨magic, checksum, size, hmagic, hchecksum, hsize, hcount, rfl⟩ :=
      fileHeader_eq_ok.1 hfile
    obtain ⟨_, _, hmany, h₂⟩ := Reader.bind_eq_ok.1 h₁
    obtain ⟨sections, ⟨rfl, hsections⟩, rfl, rfl⟩ :=
      (reads_readMany reads_sectionEntry _ _ _ _).1 hmany
    obtain ⟨_, _, hn, h₃⟩ := Reader.bind_eq_ok.1 h₂
    obtain ⟨hcount', rfl⟩ := u32_eq_ok.1 hn
    obtain ⟨_, hmany', rfl⟩ := Reader.bind_pure_eq_ok.1 h₃
    obtain ⟨headers, ⟨rfl, hheaders⟩, rfl, rfl⟩ :=
      (reads_readMany reads_headerEntry _ _ _ _).1 hmany'
    exact ⟨⟨magic, checksum, size, sections, headers⟩,
      ⟨hmagic, hchecksum, hsize, hcount, hcount', hsections, hheaders⟩, rfl,
      by simp only [Headers.encode, List.append_assoc]⟩
  · rintro ⟨h, ⟨hmagic, hchecksum, hsize, hcount, hcount', hsections, hheaders⟩, rfl, rfl⟩
    refine Reader.bind_eq_ok.2 ⟨h.sections.length, _, fileHeader_eq_ok.2 ⟨h.magic, h.checksum,
      h.headerSize, hmagic, hchecksum, hsize, hcount,
      by simp only [Headers.encode, List.append_assoc]; rfl⟩, ?_⟩
    refine Reader.bind_eq_ok.2 ⟨h.sections, _, (reads_readMany reads_sectionEntry _ _ _ _).2
      ⟨h.sections, ⟨rfl, hsections⟩, rfl, rfl⟩, ?_⟩
    refine Reader.bind_eq_ok.2 ⟨h.headers.length, _, u32_eq_ok.2 ⟨hcount', rfl⟩, ?_⟩
    exact Reader.bind_pure_eq_ok.2 ⟨h.headers, (reads_readMany reads_headerEntry _ _ _ _).2
      ⟨h.headers, ⟨rfl, hheaders⟩, rfl, rfl⟩, rfl⟩

/-! ### What opens -/

/-- The key opens data that was encrypted with the salt. -/
def Opens (crypto : Crypto) (salt key data content : Bytes) : Prop :=
  key.length = 16 ∧ crypto.aes128 data key (crypto.md5 salt) = some content ∨
    key.length = 32 ∧ crypto.aes256 data key ((crypto.sha256 salt).take 16) = some content

/-- The key opens data that begins with its salt. -/
def SaltedOpens (crypto : Crypto) (key data content : Bytes) : Prop :=
  ∃ salt cipher, List.length salt = 8 ∧ data = utf8 "Salted__" ++ salt ++ cipher ∧
    Opens crypto salt key cipher content

/-- The text of an upgrade tree stands where one of the versions has it. -/
def IsOuith (data : Bytes) : Prop :=
  utf8 "Tizen Software Upgrade Tree Binary Format ver. 1.8" <+: data.drop 256 ∨
    utf8 "Tizen Software Upgrade Tree Binary Format ver. 1.9" <+: data.drop 262 ∨
      utf8 "Tizen Software Upgrade Tree Binary Format ver. 1.9" <+: data.drop 518

lemma unpad_eq_ok {result : Option Bytes} {content : Bytes} :
    unpad result = .ok content ↔ result = some content := by
  cases result with
  | none => exact iff_of_false nofun nofun
  | some data => rw [unpad, Except.ok.injEq, Option.some.injEq]

lemma decryptAesTizen_eq_ok {crypto : Crypto} {data key salt content : Bytes} :
    decryptAesTizen crypto data key salt = .ok content ↔ Opens crypto salt key data content := by
  rw [decryptAesTizen, Opens]
  split_ifs with h16 h32
  · have hne : key.length ≠ 32 := by omega
    rw [unpad_eq_ok, or_iff_left fun h => hne h.1, and_iff_right h16]
  · rw [unpad_eq_ok, or_iff_right fun h => h16 h.1, and_iff_right h32]
  · exact iff_of_false nofun (not_or.2 ⟨fun h => h16 h.1, fun h => h32 h.1⟩)

lemma slice_eq_ok {data part : Bytes} {start stop : ℕ} (h : start < stop) :
    slice data start stop = .ok part ↔ part.length = stop - start ∧ part <+: data.drop start := by
  rw [slice]
  split_ifs with hle
  · rw [Except.ok.injEq]
    have hlength : stop - start ≤ (data.drop start).length := by
      rw [List.length_drop]
      omega
    constructor
    · rintro rfl
      exact ⟨List.length_take_of_le hlength, List.take_prefix _ _⟩
    · rintro ⟨hpart, hpre⟩
      rw [← hpart]
      exact (List.prefix_iff_eq_take.1 hpre).symm
  · refine iff_of_false nofun ?_
    rintro ⟨hpart, hpre⟩
    have hlength := hpre.length_le
    rw [List.length_drop] at hlength
    omega

lemma bind_eq_ok {α β : Type} {x : Except Stop α} {f : α → Except Stop β} {b : β} :
    (x >>= f) = .ok b ↔ ∃ a, x = .ok a ∧ f a = .ok b := by
  cases x with
  | error e => exact iff_of_false nofun nofun
  | ok a => exact ⟨fun h => ⟨a, rfl, h⟩, by rintro ⟨_, ⟨⟩, h⟩; exact h⟩

lemma drop_marker (bs : Bytes) : (utf8 "Salted__" ++ bs).drop 8 = bs := by
  have hmarker : (utf8 "Salted__").length = 8 := by decide +kernel
  rw [← hmarker, List.drop_left]

lemma decryptAesSaltedTizen_eq_ok {crypto : Crypto} {data key content : Bytes} :
    decryptAesSaltedTizen crypto data key = .ok content ↔
      SaltedOpens crypto key data content := by
  rw [decryptAesSaltedTizen, bind_eq_ok]
  constructor
  · rintro ⟨front, hfront, h⟩
    obtain ⟨-, behind, hbehind⟩ := (slice_eq_ok (by norm_num)).1 hfront
    rw [List.drop_zero] at hbehind
    subst hbehind
    dsimp only at h
    split_ifs at h with hne
    · cases h
    · obtain rfl := not_not.1 hne
      obtain ⟨salt, hslice, hopens⟩ := bind_eq_ok.1 h
      obtain ⟨hsalt, cipher, hcipher⟩ := (slice_eq_ok (by norm_num)).1 hslice
      rw [drop_marker] at hcipher
      subst hcipher
      rw [show 16 = 8 + 8 from rfl, ← List.drop_drop, drop_marker,
        ← (show salt.length = 8 from hsalt), List.drop_left] at hopens
      exact ⟨salt, cipher, hsalt, (List.append_assoc _ _ _).symm, decryptAesTizen_eq_ok.1 hopens⟩
  · rintro ⟨salt, cipher, hsalt, rfl, hopens⟩
    rw [List.append_assoc]
    refine ⟨utf8 "Salted__",
      (slice_eq_ok (by norm_num)).2 ⟨by decide +kernel, List.prefix_append _ _⟩, ?_⟩
    dsimp only
    rw [if_neg (not_not.2 rfl)]
    refine bind_eq_ok.2 ⟨salt, (slice_eq_ok (by norm_num)).2 ⟨hsalt, ?_⟩, ?_⟩
    · rw [drop_marker]
      exact List.prefix_append _ _
    · rw [show 16 = 8 + 8 from rfl, ← List.drop_drop, drop_marker, ← hsalt, List.drop_left]
      exact decryptAesTizen_eq_ok.2 hopens

/-- What a comparison with a slice finds. -/
lemma slice_eq_text {data text : Bytes} (start stop : ℕ) (h : start < stop)
    (htext : text.length = stop - start) :
    slice data start stop = .ok text ↔ text <+: data.drop start := by
  rw [slice_eq_ok h, and_iff_right htext]

/-- Data in which a text stands has slices up to the text. -/
lemma exists_slice {data text : Bytes} {place : ℕ} (h : text <+: data.drop place)
    (htext : text ≠ []) (start : ℕ) {stop : ℕ} (hstop : stop ≤ place + text.length) :
    ∃ part, slice data start stop = .ok part := by
  have hlength := h.length_le
  have hpos := List.length_pos_iff.2 htext
  rw [List.length_drop] at hlength
  exact ⟨_, if_pos (by omega)⟩

lemma isValidOuith_eq_true {data : Bytes} : isValidOuith data = .ok true ↔ IsOuith data := by
  have h8 : (utf8 "Tizen Software Upgrade Tree Binary Format ver. 1.8").length = 50 := by
    decide +kernel
  have h9 : (utf8 "Tizen Software Upgrade Tree Binary Format ver. 1.9").length = 50 := by
    decide +kernel
  rw [isValidOuith, bind_eq_ok, IsOuith]
  -- the texts matter by their lengths only
  generalize utf8 "Tizen Software Upgrade Tree Binary Format ver. 1.8" = text8 at h8 ⊢
  generalize utf8 "Tizen Software Upgrade Tree Binary Format ver. 1.9" = text9 at h9 ⊢
  have hne : text9 ≠ [] := List.ne_nil_of_length_eq_add_one h9
  constructor
  · rintro ⟨first, hfirst, h⟩
    split_ifs at h with heq
    · exact Or.inl ((slice_eq_text 256 306 (by norm_num) h8).1 (heq ▸ hfirst))
    · obtain ⟨second, hsecond, h⟩ := bind_eq_ok.1 h
      split_ifs at h with heq
      · exact Or.inr (Or.inl ((slice_eq_text 262 312 (by norm_num) h9).1 (heq ▸ hsecond)))
      · obtain ⟨third, hthird, h⟩ := bind_eq_ok.1 h
        have heq := of_decide_eq_true (Except.ok.inj h)
        exact Or.inr (Or.inr ((slice_eq_text 518 568 (by norm_num) h9).1 (heq ▸ hthird)))
  · rintro (h | h | h)
    · refine ⟨_, (slice_eq_text 256 306 (by norm_num) h8).2 h, ?_⟩
      rw [if_pos rfl]
      rfl
    · obtain ⟨first, hfirst⟩ := exists_slice h hne 256 (by rw [h9]; norm_num : 306 ≤ _)
      refine ⟨first, hfirst, ?_⟩
      split_ifs
      · rfl
      · refine bind_eq_ok.2 ⟨_, (slice_eq_text 262 312 (by norm_num) h9).2 h, ?_⟩
        rw [if_pos rfl]
        rfl
    · obtain ⟨first, hfirst⟩ := exists_slice h hne 256 (by rw [h9]; norm_num : 306 ≤ _)
      obtain ⟨second, hsecond⟩ := exists_slice h hne 262 (by rw [h9]; norm_num : 312 ≤ _)
      refine ⟨first, hfirst, ?_⟩
      split_ifs
      · rfl
      · refine bind_eq_ok.2 ⟨second, hsecond, ?_⟩
        split_ifs
        · rfl
        · exact bind_eq_ok.2 ⟨_, (slice_eq_text 518 568 (by norm_num) h9).2 h,
            congrArg Except.ok (decide_eq_true rfl)⟩

lemma isValidOuith_eq_false {data : Bytes} :
    isValidOuith data = .ok false ↔ 568 ≤ data.length ∧ ¬ IsOuith data := by
  rw [← isValidOuith_eq_true]
  constructor
  · intro h
    refine ⟨?_, by rw [h]; exact nofun⟩
    rw [isValidOuith] at h
    obtain ⟨first, hfirst, h⟩ := bind_eq_ok.1 h
    split_ifs at h
    · cases h
    · obtain ⟨second, hsecond, h⟩ := bind_eq_ok.1 h
      split_ifs at h
      · cases h
      · obtain ⟨third, hthird, -⟩ := bind_eq_ok.1 h
        by_contra hshort
        rw [slice, if_neg hshort] at hthird
        cases hthird
  · rintro ⟨hlong, hne⟩
    obtain ⟨b, hb⟩ : ∃ b, isValidOuith data = .ok b := by
      rw [isValidOuith, slice, slice, slice, if_pos (by omega), if_pos (by omega), if_pos hlong]
      dsimp only [bind, Except.bind]
      split_ifs
      · exact ⟨_, rfl⟩
      · exact ⟨_, rfl⟩
      · exact ⟨_, rfl⟩
    cases b with
    | false => exact hb
    | true => exact absurd hb hne

/-! ### Containers -/

section Container

variable {P : Type} (env : Environment P) (file : Bytes)

/-- The data lies at this place of the file. -/
def Stored (offset size : ℕ) (data : Bytes) : Prop :=
  data.length = size ∧ data <+: file.drop offset

/-- The first header leads to the encrypted table of contents, behind eight bytes. -/
def TocAt (headers : List HeaderEntry) (toc : Bytes) : Prop :=
  ∃ header others, headers = header :: others ∧ 8 ≤ header.size ∧
    Stored file (header.offset + 8) (header.size - 8) toc

/-- What the first of the keys opens the table of contents as, if it does so, is no upgrade tree,
and long enough for a text of every version. -/
def PassedOver (toc : Bytes) (keys : List Bytes) : Prop :=
  ∃ key others, keys = key :: others ∧ ∀ content, SaltedOpens env.crypto key toc content →
    568 ≤ content.length ∧ ¬ IsOuith content

/-- The first key of the collection that opens the table of contents as an upgrade tree. -/
def FirstKey (toc : Bytes) (collection : List (String × List Bytes)) (key : Bytes) : Prop :=
  ∃ before name others after, collection = before ++ (name, key :: others) :: after ∧
    (∀ entry ∈ before, PassedOver env toc entry.2) ∧
    ∃ content, SaltedOpens env.crypto key toc content ∧ IsOuith content

/-- What the sections and a key say of item number `i`: where it goes and what it contains. -/
def ItemHolds (sections : List SectionEntry) (key : Bytes) (item : MSDItem × ℕ) (part : P × Bytes) :
    Prop :=
  env.place item.1.name = some part.1 ∧ ∃ entry data, sections[item.2]? = some entry ∧
    entry.index = item.1.itemId ∧ Stored file entry.offset entry.size data ∧
    match item.1.aesSalt with
    | none => part.2 = data
    | some salt => Opens env.crypto salt key data part.2

/-- A container: its headers, its encrypted table of contents with its key, and the tree that the
table of contents begins with. -/
structure Container where
  headers : Headers
  toc : Bytes
  key : Bytes
  blob : Bytes
  tree : Ouith

/-- The file is the container. -/
structure Container.Describes (c : Container) (collection : List (String × List Bytes)) :
    Prop where
  headers_valid : c.headers.Valid
  begins : c.headers.encode <+: file
  toc_at : TocAt file c.headers.headers c.toc
  key_first : FirstKey env c.toc collection c.key
  opens : SaltedOpens env.crypto c.key c.toc c.blob
  tree_valid : c.tree.Valid env.overflowChecks
  tree_begins : c.tree.encode <+: c.blob

/-- The decrypted table of contents has a file of its own, if that is asked for. -/
def Dumps (blob : Bytes) (parts : List (P × Bytes)) : Prop :=
  if env.dumpDecHdrs then ∃ p, env.place tocName = some p ∧ parts = [(p, blob)] else parts = []

/-- The parts that the container holds. -/
def Container.Holds (c : Container) (parts : List (P × Bytes)) : Prop :=
  List.Forall₂ (ItemHolds env file c.headers.sections c.key) c.tree.items.zipIdx parts

/-- A part of the file is there as a whole, and can be read at once. -/
structure Readable (offset size : ℕ) : Prop where
  le_length : offset + size ≤ file.length
  le_readLimit : size ≤ env.readLimit
  le_largestBuffer : size ≤ env.largestBuffer

/-- The file has all that its headers list. -/
structure Complete : Prop where
  length_lt : file.length < 2 ^ 63
  toc (h : Headers) : h.Valid → h.encode <+: file → ∀ header ∈ h.headers.head?,
    8 ≤ header.size ∧ Readable env file (header.offset + 8) (header.size - 8)
  sections (h : Headers) : h.Valid → h.encode <+: file → ∀ entry ∈ h.sections,
    Readable env file entry.offset entry.size

variable {env file}

lemma readFile_eq_ok (hlt : file.length < 2 ^ 63) {offset size : ℕ}
    (h : Readable env file offset size) {data : Bytes} :
    readFile env file offset size = .ok data ↔ Stored file offset size data := by
  have hle := h.le_length
  have hlength : ((file.drop offset).take size).length = size := by
    rw [List.length_take, List.length_drop]
    omega
  rw [readFile, if_neg (by omega), if_neg (not_lt.2 h.le_largestBuffer),
    Nat.min_eq_left h.le_readLimit]
  dsimp only
  rw [hlength, Nat.sub_self, List.replicate_zero, List.append_nil, Except.ok.injEq, Stored]
  constructor
  · rintro rfl
    exact ⟨hlength, List.take_prefix _ _⟩
  · rintro ⟨rfl, hprefix⟩
    exact (List.prefix_iff_eq_take.1 hprefix).symm

lemma readToc_eq_ok (hlt : file.length < 2 ^ 63) {headers : List HeaderEntry}
    (h : ∀ header ∈ headers.head?,
      8 ≤ header.size ∧ Readable env file (header.offset + 8) (header.size - 8)) {toc : Bytes} :
    readToc env file headers = .ok toc ↔ TocAt file headers toc := by
  cases headers with
  | nil =>
      refine iff_of_false nofun ?_
      rintro ⟨_, _, ⟨⟩, -⟩
  | cons header others =>
      obtain ⟨hsize, hreadable⟩ := h header rfl
      have hle := hreadable.le_length
      rw [readToc, tocOffset, tocSize, if_pos (by omega), if_pos hsize]
      refine (readFile_eq_ok hlt hreadable).trans ?_
      constructor
      · exact fun hstored => ⟨header, others, rfl, hsize, hstored⟩
      · rintro ⟨_, _, ⟨⟩, -, hstored⟩
        exact hstored

section Search

variable {toc first key content : Bytes} {others : List Bytes}
  {collection : List (String × List Bytes)}

lemma findPassphrase_error {e : Stop} (h : decryptAesSaltedTizen env.crypto toc first = .error e)
    (hne : e ≠ .panicked) (name : String) :
    findPassphrase env toc ((name, first :: others) :: collection) =
      findPassphrase env toc collection := by
  rw [findPassphrase, h]
  cases e <;> first | rfl | exact absurd rfl hne

lemma findPassphrase_ok (h : decryptAesSaltedTizen env.crypto toc first = .ok content)
    (name : String) : findPassphrase env toc ((name, first :: others) :: collection) =
      isValidOuith content >>= fun b =>
        if b then .ok first else findPassphrase env toc collection := by
  rw [findPassphrase, h]
  rfl

/-- Data that opens with some key is not too short for any. -/
lemma decryptAesSaltedTizen_ne_panicked (h : SaltedOpens env.crypto key toc content) :
    decryptAesSaltedTizen env.crypto toc first ≠ .error .panicked := by
  obtain ⟨salt, cipher, hsalt, rfl, -⟩ := h
  have hmarker : (utf8 "Salted__").length = 8 := by decide +kernel
  have hfront : slice (utf8 "Salted__" ++ salt ++ cipher) 0 8 = .ok (utf8 "Salted__") :=
    (slice_eq_ok (by norm_num)).2 ⟨hmarker, by
      rw [List.drop_zero, List.append_assoc]
      exact List.prefix_append _ _⟩
  have hback : slice (utf8 "Salted__" ++ salt ++ cipher) 8 16 = .ok salt :=
    (slice_eq_ok (by norm_num)).2 ⟨hsalt, by
      rw [List.append_assoc, drop_marker]
      exact List.prefix_append _ _⟩
  have haes (data : Bytes) : decryptAesTizen env.crypto data first salt ≠ .error .panicked := by
    have hunpad (result : Option Bytes) : unpad result ≠ .error .panicked := by
      cases result with
      | none => exact nofun
      | some data => exact nofun
    rw [decryptAesTizen]
    split_ifs
    · exact hunpad _
    · exact hunpad _
    · exact nofun
  rw [decryptAesSaltedTizen, hfront]
  dsimp only [bind, Except.bind]
  rw [if_neg (not_not.2 rfl), hback]
  exact haes _

lemma passedOver_cons : PassedOver env toc (first :: others) ↔
    ∀ content, decryptAesSaltedTizen env.crypto toc first = .ok content →
      isValidOuith content = .ok false := by
  simp only [decryptAesSaltedTizen_eq_ok, isValidOuith_eq_false]
  constructor
  · rintro ⟨_, _, ⟨⟩, h⟩
    exact h
  · exact fun h => ⟨first, others, rfl, h⟩

/-- The search ends at an entry or passes it over. -/
lemma findPassphrase_cons
    (hpanic : decryptAesSaltedTizen env.crypto toc first ≠ .error .panicked) (name : String) :
    findPassphrase env toc ((name, first :: others) :: collection) = .ok key ↔
      (first = key ∧ ∃ content, SaltedOpens env.crypto key toc content ∧ IsOuith content) ∨
      PassedOver env toc (first :: others) ∧ findPassphrase env toc collection = .ok key := by
  simp only [passedOver_cons, ← decryptAesSaltedTizen_eq_ok, ← isValidOuith_eq_true]
  rcases hdecrypt : decryptAesSaltedTizen env.crypto toc first with e | content
  · have hne : e ≠ .panicked := by
      rintro rfl
      exact hpanic hdecrypt
    rw [findPassphrase_error hdecrypt hne]
    constructor
    · exact fun h => Or.inr ⟨nofun, h⟩
    · rintro (⟨rfl, content, hcontent, -⟩ | ⟨-, h⟩)
      · rw [hdecrypt] at hcontent
        cases hcontent
      · exact h
  · rw [findPassphrase_ok hdecrypt, bind_eq_ok]
    constructor
    · rintro ⟨b, hvalid, h⟩
      cases b with
      | false =>
          refine Or.inr ⟨?_, h⟩
          rintro _ ⟨⟩
          exact hvalid
      | true =>
          obtain rfl := Except.ok.inj h
          exact Or.inl ⟨rfl, content, hdecrypt, hvalid⟩
    · rintro (⟨rfl, content', hcontent, hvalid⟩ | ⟨hpassed, h⟩)
      · obtain rfl := Except.ok.inj (hdecrypt.symm.trans hcontent)
        exact ⟨true, hvalid, rfl⟩
      · exact ⟨false, hpassed content rfl, h⟩

end Search

/-- The search returns the first key that opens, if it comes to it. -/
lemma findPassphrase_eq_ok {toc key : Bytes} {collection : List (String × List Bytes)} :
    findPassphrase env toc collection = .ok key ↔ FirstKey env toc collection key := by
  induction collection with
  | nil =>
      refine iff_of_false nofun ?_
      rintro ⟨before, _, _, _, hsplit, -⟩
      cases before <;> cases hsplit
  | cons entry collection ih =>
      obtain ⟨name, _ | ⟨first, others⟩⟩ := entry
      · refine iff_of_false nofun ?_
        rintro ⟨_ | ⟨_, before⟩, _, _, _, hsplit, hbefore, -⟩
        · cases hsplit
        · obtain ⟨rfl, -⟩ := List.cons.inj hsplit
          obtain ⟨_, _, ⟨⟩, -⟩ := hbefore _ List.mem_cons_self
      constructor
      · intro h
        have hpanic : decryptAesSaltedTizen env.crypto toc first ≠ .error .panicked := by
          intro hdecrypt
          rw [findPassphrase, hdecrypt] at h
          cases h
        rcases (findPassphrase_cons hpanic name).1 h with ⟨rfl, hopens⟩ | ⟨hpassed, h⟩
        · exact ⟨[], name, others, collection, rfl, nofun, hopens⟩
        · obtain ⟨before, name', others', after, rfl, hbefore, hopens⟩ := ih.1 h
          exact ⟨(name, first :: others) :: before, name', others', after, rfl,
            List.forall_mem_cons.2 ⟨hpassed, hbefore⟩, hopens⟩
      · rintro ⟨before, name', others', after, hsplit, hbefore, content, hopens, hvalid⟩
        rw [findPassphrase_cons (decryptAesSaltedTizen_ne_panicked hopens)]
        cases before with
        | nil =>
            obtain ⟨⟨⟩, rfl⟩ := List.cons.inj hsplit
            exact Or.inl ⟨rfl, content, hopens, hvalid⟩
        | cons entry before =>
            obtain ⟨rfl, rfl⟩ := List.cons.inj hsplit
            obtain ⟨hpassed, hbefore⟩ := List.forall_mem_cons.1 hbefore
            exact Or.inr ⟨hpassed,
              ih.2 ⟨before, name', others', after, rfl, hbefore, content, hopens, hvalid⟩⟩

/-- What is written for an item whose salt is there exactly if it is encrypted. -/
lemma itemData_eq_ok (hlt : file.length < 2 ^ 63) {sections : List SectionEntry}
    (hsections : ∀ entry ∈ sections, Readable env file entry.offset entry.size) {key : Bytes}
    {i : ℕ} {item : MSDItem} (hsalt : item.aesEncryption = item.aesSalt.isSome) {content : Bytes} :
    itemData env file sections key i item = .ok content ↔
      ∃ entry data, sections[i]? = some entry ∧ entry.index = item.itemId ∧
        Stored file entry.offset entry.size data ∧
        match item.aesSalt with
        | none => content = data
        | some salt => Opens env.crypto salt key data content := by
  rw [itemData]
  cases hentry : sections[i]? with
  | none =>
      refine iff_of_false nofun ?_
      rintro ⟨_, _, ⟨⟩, -⟩
  | some entry =>
      have hread (data : Bytes) : readFile env file entry.offset entry.size = .ok data ↔
          Stored file entry.offset entry.size data :=
        readFile_eq_ok hlt (hsections entry (List.mem_of_getElem? hentry))
      obtain ⟨itemId, name, encrypted, salt⟩ := item
      obtain rfl : encrypted = salt.isSome := hsalt
      by_cases hid : entry.index = itemId
      · dsimp only
        rw [if_neg (not_not.2 hid)]
        constructor
        · intro h
          obtain ⟨data, hdata, hcontent⟩ := bind_eq_ok.1 h
          refine ⟨entry, data, rfl, hid, (hread _).1 hdata, ?_⟩
          cases salt with
          | none => exact (Except.ok.inj hcontent).symm
          | some salt => exact decryptAesTizen_eq_ok.1 hcontent
        · rintro ⟨_, data, ⟨⟩, -, hstored, hcontent⟩
          refine bind_eq_ok.2 ⟨data, (hread _).2 hstored, ?_⟩
          cases salt with
          | none => exact congrArg Except.ok hcontent.symm
          | some salt => exact decryptAesTizen_eq_ok.2 hcontent
      · dsimp only
        rw [if_pos hid]
        refine iff_of_false nofun ?_
        rintro ⟨_, _, ⟨⟩, h, -⟩
        exact hid h

/-- What the loop over the items writes, if it does not fail. -/
lemma extractItems_eq_done [DecidableEq P] (hlt : file.length < 2 ^ 63)
    {sections : List SectionEntry}
    (hsections : ∀ entry ∈ sections, Readable env file entry.offset entry.size) {key : Bytes}
    {items : List MSDItem} (hsalts : ∀ item ∈ items, item.aesEncryption = item.aesSalt.isSome) :
    ∀ {i : ℕ} {files files' : P → Option Bytes},
      extractItems env file sections key i items files = (files', none) ↔
        ∃ parts, List.Forall₂ (ItemHolds env file sections key) (items.zipIdx i) parts ∧
          files' = parts.foldl (fun files part => writeItem files part.1 part.2) files := by
  induction items with
  | nil =>
      intro i files files'
      rw [extractItems, List.zipIdx_nil, Prod.mk.injEq, and_iff_left rfl, eq_comm]
      constructor
      · rintro rfl
        exact ⟨[], .nil, rfl⟩
      · rintro ⟨_, ⟨⟩, rfl⟩
        rfl
  | cons item items ih =>
      intro i files files'
      obtain ⟨hsalt, hsalts⟩ := List.forall_mem_cons.1 hsalts
      rw [extractItems, List.zipIdx_cons]
      constructor
      · intro h
        rcases hdata : itemData env file sections key i item with e | data
        · rw [hdata] at h
          cases h
        · rw [hdata] at h
          dsimp only at h
          rcases hplace : env.place item.name with _ | p
          · rw [hplace] at h
            cases h
          · rw [hplace] at h
            obtain ⟨parts, hparts, rfl⟩ := (ih hsalts).1 h
            have hitem := (itemData_eq_ok hlt hsections hsalt).1 hdata
            exact ⟨(p, data) :: parts, .cons ⟨hplace, hitem⟩ hparts, rfl⟩
      · rintro ⟨_, hparts, rfl⟩
        obtain ⟨⟨p, data⟩, parts, ⟨hplace, hholds⟩, hrest, rfl⟩ :=
          List.forall₂_cons_left_iff.1 hparts
        rw [(itemData_eq_ok hlt hsections hsalt).2 hholds]
        dsimp only
        rw [hplace]
        exact (ih hsalts).2 ⟨parts, hrest, rfl⟩

/-- An item of a tree is encrypted exactly if the tree names a salt for it. -/
lemma aesEncryption_eq_isSome {t : Ouith} : ∀ item ∈ t.items,
    item.aesEncryption = item.aesSalt.isSome := by
  intro item hitem
  obtain ⟨d, -, hitem⟩ := List.mem_flatMap.1 hitem
  cases d with
  | upgradeItem h flag itemId unkFlag originalSize processedSize unk descs =>
      obtain ⟨name, -, rfl⟩ := List.mem_map.1 hitem
      cases hsalts : descs.flatMap ItemDesc.salts with
      | nil => rfl
      | cons salt salts => simp [List.getLast?_cons]
  | group | secureDowngrade | baseVersion | metadata => cases hitem

/-- What the extraction has before it writes. -/
lemma openMsd11_eq_ok (hfile : Complete env file) {collection : List (String × List Bytes)}
    {sections : List SectionEntry} {key blob : Bytes} :
    openMsd11 env file (some collection) = .ok (sections, key, blob) ↔
      ∃ headers toc, Headers.Valid headers ∧ headers.encode <+: file ∧
        TocAt file headers.headers toc ∧ FirstKey env toc collection key ∧
        SaltedOpens env.crypto key toc blob ∧ headers.sections = sections := by
  rw [openMsd11]
  constructor
  · intro h
    obtain ⟨⟨_, rest⟩, hread, hopened⟩ := bind_eq_ok.1 h
    obtain ⟨headers, hvalid, rfl, rfl⟩ := (reads_readHeaders _ _ _).1 hread
    obtain ⟨toc, htoc, hsearch⟩ := bind_eq_ok.1 hopened
    obtain ⟨key, hkey, hdecrypt⟩ := bind_eq_ok.1 hsearch
    obtain ⟨blob, hblob, hpure⟩ := bind_eq_ok.1 hdecrypt
    obtain ⟨⟩ := Except.ok.inj hpure
    have hbegins := List.prefix_append headers.encode rest
    exact ⟨headers, toc, hvalid, hbegins,
      (readToc_eq_ok hfile.length_lt (hfile.toc headers hvalid hbegins)).1 htoc,
      findPassphrase_eq_ok.1 hkey, decryptAesSaltedTizen_eq_ok.1 hblob, rfl⟩
  · rintro ⟨headers, toc, hvalid, hbegins, htoc, hkey, hblob, rfl⟩
    have htoc' := (readToc_eq_ok hfile.length_lt (hfile.toc headers hvalid hbegins)).2 htoc
    obtain ⟨rest, rfl⟩ := hbegins
    refine bind_eq_ok.2 ⟨_, (reads_readHeaders _ _ _).2 ⟨headers, hvalid, rfl, rfl⟩, ?_⟩
    refine bind_eq_ok.2 ⟨toc, htoc', ?_⟩
    refine bind_eq_ok.2 ⟨key, findPassphrase_eq_ok.2 hkey, ?_⟩
    exact bind_eq_ok.2 ⟨blob, decryptAesSaltedTizen_eq_ok.2 hblob, rfl⟩

lemma optDumpDecHdr_eq_done [DecidableEq P] {blob : Bytes} {files files' : P → Option Bytes} :
    optDumpDecHdr env blob files = (files', none) ↔ ∃ dump, Dumps env blob dump ∧
      files' = dump.foldl (fun files part => writeItem files part.1 part.2) files := by
  rw [optDumpDecHdr]
  simp only [Dumps]
  split_ifs
  · cases env.place tocName with
    | none =>
        refine iff_of_false nofun ?_
        rintro ⟨_, ⟨_, ⟨⟩, -⟩, -⟩
    | some p =>
        rw [Prod.mk.injEq, and_iff_left rfl]
        constructor
        · rintro rfl
          exact ⟨[(p, blob)], ⟨p, rfl, rfl⟩, rfl⟩
        · rintro ⟨_, ⟨_, ⟨⟩, rfl⟩, rfl⟩
          rfl
  · rw [Prod.mk.injEq, and_iff_left rfl]
    constructor
    · rintro rfl
      exact ⟨[], rfl, rfl⟩
    · rintro ⟨_, rfl, rfl⟩
      rfl

/-- **When an extraction succeeds.**  Of a file that has all that its headers list,
`extract_msd11` reports success exactly if the file is a container whose items all have their
section and their place, and it has written the parts that the container holds, in their order. -/
theorem extracts_extractMsd11 [DecidableEq P] (env : Environment P) (file : Bytes)
    (hfile : Complete env file) (collection : List (String × List Bytes))
    (files files' : P → Option Bytes) :
    extractMsd11 env file (some collection) files = (files', none) ↔
      ∃ (c : Container) (dump parts : List (P × Bytes)), c.Describes env file collection ∧
        Dumps env c.blob dump ∧ c.Holds env file parts ∧
        files' = (dump ++ parts).foldl (fun files part => writeItem files part.1 part.2) files := by
  rw [extractMsd11]
  constructor
  · intro h
    rcases hopen : openMsd11 env file (some collection) with e | ⟨sections, key, blob⟩
    · rw [hopen] at h
      cases h
    rw [hopen] at h
    obtain ⟨headers, toc, hvalid, hbegins, htoc, hkey, hblob, rfl⟩ :=
      (openMsd11_eq_ok hfile).1 hopen
    dsimp only at h
    rcases hdump : optDumpDecHdr env blob files with ⟨files₁, _ | e⟩
    · rw [hdump] at h
      dsimp only at h
      rcases hparse : parseBlob19 env.overflowChecks blob with e | ⟨items, info⟩
      · rw [hparse] at h
        cases h
      rw [hparse] at h
      obtain ⟨tree, behind, htree, rfl, heq⟩ := parseBlob19_eq_ok.1 hparse
      obtain ⟨rfl, -⟩ := Prod.mk.inj heq
      obtain ⟨dump, hdumps, rfl⟩ := optDumpDecHdr_eq_done.1 hdump
      obtain ⟨parts, hparts, rfl⟩ := (extractItems_eq_done hfile.length_lt
        (hfile.sections headers hvalid hbegins) aesEncryption_eq_isSome).1 h
      exact ⟨⟨headers, toc, key, tree.encode ++ behind, tree⟩, dump, parts,
        ⟨hvalid, hbegins, htoc, hkey, hblob, htree, List.prefix_append _ _⟩, hdumps, hparts,
        List.foldl_append.symm⟩
    · rw [hdump] at h
      cases h
  · rintro ⟨c, dump, parts, hc, hdumps, hparts, rfl⟩
    obtain ⟨behind, hblob⟩ := hc.tree_begins
    rw [(openMsd11_eq_ok hfile).2 ⟨c.headers, c.toc, hc.headers_valid, hc.begins, hc.toc_at,
      hc.key_first, hc.opens, rfl⟩]
    dsimp only
    rw [optDumpDecHdr_eq_done.2 ⟨dump, hdumps, rfl⟩]
    dsimp only
    rw [parseBlob19_eq_ok.2 ⟨c.tree, behind, hc.tree_valid, hblob.symm, rfl⟩]
    exact (extractItems_eq_done hfile.length_lt
      (hfile.sections c.headers hc.headers_valid hc.begins) aesEncryption_eq_isSome).2
      ⟨parts, hparts, List.foldl_append⟩

/-- A file begins with one list of headers only, so it is complete if it has what that lists. -/
lemma complete_of_headers (hlt : file.length < 2 ^ 63) {h : Headers} (hvalid : h.Valid)
    (hbegins : h.encode <+: file)
    (htoc : ∀ header ∈ h.headers.head?,
      8 ≤ header.size ∧ Readable env file (header.offset + 8) (header.size - 8))
    (hsections : ∀ entry ∈ h.sections, Readable env file entry.offset entry.size) :
    Complete env file := by
  have hsame (h' : Headers) (hvalid' : h'.Valid) (hbegins' : h'.encode <+: file) :
      h'.sections = h.sections ∧ h'.headers = h.headers := by
    obtain ⟨rest, hrest⟩ := hbegins
    obtain ⟨rest', hrest'⟩ := hbegins'
    have hread := (reads_readHeaders file _ rest).2 ⟨h, hvalid, rfl, hrest.symm⟩
    have hread' := (reads_readHeaders file _ rest').2 ⟨h', hvalid', rfl, hrest'.symm⟩
    have heq := (Prod.mk.inj (Except.ok.inj (hread'.symm.trans hread))).1
    exact Prod.mk.inj heq
  exact {
    length_lt := hlt
    toc := fun h' hvalid' hbegins' => by
      rw [(hsame h' hvalid' hbegins').2]
      exact htoc
    sections := fun h' hvalid' hbegins' => by
      rw [(hsame h' hvalid' hbegins').1]
      exact hsections }

end Container

/-! ### A container with one item -/

/-- The passphrase. -/
def voiceKey : Bytes := (List.range 16).map UInt8.ofNat

/-- The salts of the table of contents and of the item. -/
def voiceSalts : Bytes × Bytes := ((List.range' 1 8).map UInt8.ofNat, List.replicate 8 9)

/-- What the salts are made into. -/
def voiceIvs : Bytes × Bytes :=
  ([0x13d8771c6c64e00e, 0x3b67c765eef4c81c].flatMap (leBytes 8),
    [0x8bb431cd426a782b, 0xe6a23d66423d6d08].flatMap (leBytes 8))

/-- The table of contents: one item, with a salt. -/
def voiceTree : Ouith where
  publicKeyId := 0
  signature := List.replicate 256 0
  descs := [.upgradeItem ⟨0, 0⟩ 0 1 0 0 0 0 [.partitionVersion ⟨0, 0⟩ 0 (utf8 "a"),
    .dataProcessing ⟨0, 0⟩ 0 [.aes ⟨0, 0⟩ 0 voiceSalts.2 0]]]

/-- The table of contents, encrypted. -/
def voiceCipher : Bytes :=
  [0x101b82dc0c70b8ca, 0xfcf3b7402b4e512e, 0x0ed64207a66f184d, 0x570903c5b18a8269,
   0x00969cc4173c30bb, 0x878eb95658204bc3, 0xf206716abccbef3a, 0x9bb6178d4c6c329a,
   0x7ec04c4954604562, 0x9db664cfccce080b, 0x6175c2aeff18b8cf, 0x0b582b3ea2afdb88,
   0x912fcdfb34a21f8d, 0x5f9bc02e01cae3df, 0x7f5ea6d4adc7f49e, 0x8649285a7ca7bcfa,
   0xaddfe35cf094fc3d, 0x110d23fdd2c9d7a3, 0x6f1223cc40cf7754, 0x6272245988da2126,
   0xfa51a62324ce3d5f, 0x4680d64241f23341, 0xb33addc8d4112ab1, 0xba5cf3dd2d586cfb,
   0x137042d57a81bc5a, 0x3ed2b6d7f3e577e8, 0xf3ea3d8ad13a4091, 0xbccbc41f1fd28cf0,
   0x5015e35bd566be54, 0x670d6f0d526c306f, 0xb8713f7ced03cb39, 0xf81cd94dbc86539d,
   0x8352d0082e43749b, 0xdaaca15aa6e873a8, 0x3b550fc3558fccf2, 0xa6fc9255bf331bd9,
   0xa5dfb1e768cbb0bd, 0x2467e6ad9890ccb2, 0xf0eb369d81d09305, 0x3b579945578ed79b,
   0x09f864727719034f, 0x9593141169e97f84, 0xcb225c4a10fa7511, 0x24da9a2308e70d6b,
   0xf52b46da7ff71a5f, 0x25fd2f8d947bf097, 0x7f68933d39d6d00e, 0x7740c9ce4e0dfc30,
   0x8203bd4c31ac9254, 0x192aefc8200b00a9, 0xfb771cadcdc770f3, 0xb0afc424b1beedf0].flatMap (leBytes 8)

/-- The item, encrypted. -/
def voiceData : Bytes := [0x9307ad255761add5, 0xe24ffefbb8c85825].flatMap (leBytes 8)

/-- What MD5 and AES do here. -/
def voiceCrypto : Crypto where
  md5 data := if data = voiceSalts.1 then voiceIvs.1 else voiceIvs.2
  sha256 _ := []
  aes128 data key iv :=
    if (data, key, iv) = (voiceCipher, voiceKey, voiceIvs.1) then some voiceTree.encode
    else if (data, key, iv) = (voiceData, voiceKey, voiceIvs.2) then some (utf8 "voice")
    else none
  aes256 _ _ _ := none

def voiceHeaders : Headers where
  magic := utf8 "MSDU11"
  checksum := 0
  headerSize := 60
  sections := [⟨1, 500, 16⟩]
  headers := [⟨60, 440, utf8 "v"⟩]

/-- The table of contents, as it stands in the file. -/
def voiceToc : Bytes := utf8 "Salted__" ++ voiceSalts.1 ++ voiceCipher

/-- The file. -/
def voiceFile : Bytes := voiceHeaders.encode ++ List.replicate 8 0 ++ voiceToc ++ voiceData

/-- Every name has a file, and the table of contents is written, too. -/
def voiceEnvironment : Environment PyString where
  crypto := voiceCrypto
  overflowChecks := false
  dumpDecHdrs := true
  readLimit := 2 ^ 31
  largestBuffer := 2 ^ 31
  place := some

def voiceContainer : Container := ⟨voiceHeaders, voiceToc, voiceKey, voiceTree.encode, voiceTree⟩

lemma complete_voiceFile : Complete voiceEnvironment voiceFile := by
  have hlength : voiceFile.length = 516 := by decide +kernel
  refine complete_of_headers (h := voiceHeaders) (by rw [hlength]; norm_num)
    (by decide +kernel) ⟨_, by simp only [voiceFile, List.append_assoc]; rfl⟩ ?_ ?_
  · rintro _ ⟨⟩
    exact ⟨by decide, by rw [hlength]; decide, by decide, by decide⟩
  · intro entry hentry
    obtain rfl := List.mem_singleton.1 hentry
    exact ⟨by rw [hlength]; decide, by decide, by decide⟩

lemma describes_voiceFile :
    voiceContainer.Describes voiceEnvironment voiceFile [("key", [voiceKey])] := by
  have hopens : SaltedOpens voiceCrypto voiceKey voiceToc voiceTree.encode :=
    ⟨voiceSalts.1, voiceCipher, by decide, rfl, .inl ⟨by decide, by decide +kernel⟩⟩
  exact {
    headers_valid := by decide +kernel
    begins := ⟨_, by simp only [voiceContainer, voiceFile, List.append_assoc]; rfl⟩
    toc_at := ⟨_, _, rfl, by decide, by decide +kernel, by decide +kernel⟩
    key_first := ⟨[], _, _, _, rfl, nofun, _, hopens, .inr (.inl (by decide +kernel))⟩
    opens := hopens
    tree_valid := by decide +kernel
    tree_begins := List.prefix_rfl }

lemma holds_voiceFile :
    voiceContainer.Holds voiceEnvironment voiceFile [(pyString "a", utf8 "voice")] := by
  have hitems : voiceTree.items = [⟨1, pyString "a", true, some voiceSalts.2⟩] := by
    decide +kernel
  rw [Container.Holds, voiceContainer, hitems]
  refine .cons ⟨rfl, ⟨1, 500, 16⟩, voiceData, rfl, rfl, ?_, ?_⟩ .nil
  · exact ⟨by decide +kernel, by decide +kernel⟩
  · exact .inl ⟨by decide, by decide +kernel⟩

theorem extracts_extractMsd11_voiceFile :
    extractMsd11 voiceEnvironment voiceFile (some [("key", [voiceKey])]) (fun _ => none) =
      (writeItem (writeItem (fun _ => none) tocName voiceTree.encode) (pyString "a")
        (utf8 "voice"), none) :=
  (extracts_extractMsd11 voiceEnvironment voiceFile complete_voiceFile _ _ _).2
    ⟨voiceContainer, [(tocName, voiceTree.encode)], _, describes_voiceFile, ⟨tocName, rfl, rfl⟩,
      holds_voiceFile, rfl⟩

end SamsungTVVoices.Unixtract
