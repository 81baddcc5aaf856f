/-
What the filter of the unpacking tool keeps.

A run in which no operation fails creates an entry for a record just if its path is wanted
(`isSome_out_iff`).  The filter is to keep the files below the speech tree and the two engine
libraries (`Speech`).  But `strstr` looks for the three texts anywhere in the full path, so it also
keeps every path that has one of them further down, an engine library with more behind its name, and
what completes a text that the path of the output folder begins (`Stray`).
`isWanted_append_iff` says that it keeps nothing else, and `keepsSpeech_iff` that the run keeps just
the speech files if and only if there is no such record in the image.
-/
import SamsungTVVoices.Extractor.Unpack

namespace SamsungTVVoices.Extractor

variable {img : Image} {dirs : List DirItem} {v : Visit} {vs : List Visit} {st st' : State}
  {p q : Bytes}

/-! ### What exists in the output -/

lemma Unpacked.failed_eq_false (h : Unpacked img v p st st') (hfailed : st'.failed = false) :
    st.failed = false := by
  cases h with
  | file entry htype h => exact hfailed
  | dlink ret entry dl htype h => exact (Bool.or_eq_false_iff.1 hfailed).1
  | hlink htype => exact hfailed

lemma Steps.failed_eq_false (h : Steps img dirs vs st st') (hfailed : st'.failed = false) :
    st.failed = false := by
  induction h with
  | nil => exact hfailed
  | skip _ _ ih => exact ih hfailed
  | made _ hmade _ ih => exact hmade.failed_eq_false (ih hfailed)

lemma isSome_create {entry : Option Entry} (hentry : entry.isSome) :
    ((st.create p entry).out q).isSome ↔ (st.out q).isSome ∨ p = q := by
  obtain ⟨e, rfl⟩ := Option.isSome_iff_exists.1 hentry
  by_cases hq : q = p
  · subst hq
    simp
  · rw [State.create_out_of_ne _ _ hq]
    simp [Ne.symm hq]

/-- What one record adds to the output, if nothing fails. -/
lemma Unpacked.isSome_iff (h : Unpacked img v p st st') (hfailed : st'.failed = false) :
    (st'.out q).isSome ↔ (st.out q).isSome ∨ (v.record.recordType ≠ .hlink ∧ p = q) := by
  cases h with
  | file entry htype h => simp [isSome_create (unpackFile_isSome h), htype]
  | dlink ret entry dl htype h =>
    have hret : ret = 0 := by simpa using (Bool.or_eq_false_iff.1 hfailed).2
    subst hret
    simpa [htype] using isSome_create (processDlinkUnpack_isSome h).1
  | hlink htype => simp [htype]

/-- What the records add to the output, if nothing fails. -/
lemma Steps.isSome_iff (h : Steps img dirs vs st st') (hfailed : st'.failed = false) :
    (st'.out q).isSome ↔ (st.out q).isSome ∨
      ∃ v ∈ vs, v.record.recordType ≠ .hlink ∧ wantedPath dirs v.record = some q := by
  induction h with
  | nil => simp
  | skip hv _ ih => simp [ih hfailed, hv]
  | made hv hmade hsteps ih =>
    rw [ih hfailed, hmade.isSome_iff (hsteps.failed_eq_false hfailed)]
    simp [hv, or_assoc]

/-- The item of a hard link. -/
def Visit.item (v : Visit) (p : Bytes) : HlinkItem :=
  hlListItemInit v.record.objectId p v.record.objectId v.calls

/-- The hard links that the records put off. -/
lemma Steps.mem_hlinks_iff (h : Steps img dirs vs st st') {it : HlinkItem} :
    it ∈ st'.hlinks ↔ it ∈ st.hlinks ∨ ∃ v ∈ vs, v.record.recordType = .hlink ∧
      ∃ p, wantedPath dirs v.record = some p ∧ it = v.item p := by
  induction h with
  | nil => simp
  | skip hv _ ih => simp [ih, hv]
  | made hv hmade _ ih =>
    rw [ih]
    cases hmade with
    | file entry htype => simp [htype]
    | dlink ret entry dl htype => simp [htype]
    | hlink htype =>
      simp [htype, hv, hlListInsert, List.mem_orderedInsert, Visit.item, or_assoc, or_left_comm]

/-- At the end these are the hard links that are wanted. -/
lemma Steps.mem_hlinks_init (h : Steps img dirs vs .init st) {it : HlinkItem} :
    it ∈ st.hlinks ↔ ∃ v ∈ vs, v.record.recordType = .hlink ∧
      ∃ p, wantedPath dirs v.record = some p ∧ it = v.item p := by
  have hinit : it ∉ State.init.hlinks := List.not_mem_nil
  rw [h.mem_hlinks_iff, or_iff_right hinit]

/-- An item without a name is one for which nothing can be created. -/
def HlinkItem.Proper (it : HlinkItem) : Prop :=
  it.name = [] → it.calls.creat = false ∧ it.calls.symlink = false ∧ it.calls.openOut = false ∧
    it.calls.link = false

lemma proper_item (hp : p ≠ []) : (v.item p).Proper := by
  rw [Visit.item, hlListItemInit]
  split_ifs
  · intro hname
    exact absurd hname hp
  · intro _
    exact ⟨rfl, rfl, rfl, rfl⟩

variable {list : List HlinkItem} {objId : ℕ} {name : Bytes}

lemma unpackHlinks_failed (h : unpackHlinks img list objId name st = some (0, st'))
    (hfailed : st'.failed = false) : st.failed = false := by
  induction list generalizing objId name st with
  | nil =>
    obtain rfl := (Prod.mk.inj (Option.some.inj h)).2
    exact hfailed
  | cons it list ih =>
    rcases unpackHlinks_cons h with ⟨-, rfl⟩ | ⟨-, -, result, -, hrest⟩ | ⟨-, -, -, hrest⟩
    · cases hfailed
    · have hlinked := ih hrest
      simp only [State.linked, Bool.or_eq_false_iff] at hlinked
      exact hlinked.1.1
    · have hcreated := ih hrest
      rwa [State.create_failed] at hcreated

/-- What the hard links add to the output, if nothing fails. -/
lemma unpackHlinks_isSome_iff (hproper : ∀ it ∈ list, it.Proper)
    (hname : objId ≠ 0 → (st.out name).isSome)
    (h : unpackHlinks img list objId name st = some (0, st')) (hfailed : st'.failed = false) :
    (∀ it ∈ list, it.name ≠ []) ∧
      ∀ q, (st'.out q).isSome ↔ (st.out q).isSome ∨ ∃ it ∈ list, it.name = q := by
  induction list generalizing objId name st with
  | nil =>
    obtain rfl := (Prod.mk.inj (Option.some.inj h)).2
    exact ⟨fun it hit => absurd hit List.not_mem_nil, by simp⟩
  | cons it list ih =>
    have hproper' := hproper it List.mem_cons_self
    have hlist : ∀ it' ∈ list, it'.Proper := fun it' hit => hproper it' (List.mem_cons_of_mem _ hit)
    rcases unpackHlinks_cons h with ⟨-, rfl⟩ | ⟨-, -, ⟨ret, entry, dl⟩, hcreate, hrest⟩ |
      ⟨hino, rfl, hlink, hrest⟩
    · cases hfailed
    · -- the first link of the inode
      have hlinked := unpackHlinks_failed hrest hfailed
      simp only [State.linked, Bool.or_eq_false_iff, decide_eq_false_iff_not, not_not] at hlinked
      obtain ⟨⟨-, hret⟩, hentry⟩ := hlinked
      have hret : ret = 0 := by simpa using hret
      have hentry : entry.isSome := by simpa using hentry
      subst hret
      have hout : ∀ q, ((st.linked it (0, entry, dl)).out q).isSome ↔
          (st.out q).isSome ∨ it.name = q := fun q => isSome_create hentry
      obtain ⟨hnames, hiff⟩ := ih hlist (fun _ => (hout it.name).2 (Or.inr rfl)) hrest
      refine ⟨?_, fun q => by rw [hiff, hout]; simp [or_assoc]⟩
      intro it' hit
      rcases List.mem_cons.1 hit with rfl | hit
      · intro hempty
        obtain ⟨hcreat, hsymlink, hopen, -⟩ := hproper' hempty
        obtain ⟨e, rfl⟩ := Option.isSome_iff_exists.1 hentry
        rcases createHlink_named hcreate with htrue | htrue | htrue
        · exact absurd (hcreat.symm.trans htrue) Bool.false_ne_true
        · exact absurd (hsymlink.symm.trans htrue) Bool.false_ne_true
        · exact absurd (hopen.symm.trans htrue) Bool.false_ne_true
      · exact hnames it' hit
    · -- another one
      have hpos : it.inoN ≠ 0 := by
        have : 0 < firstFileIno := by decide
        omega
      have hsome := hname hpos
      have hout : ∀ q, ((st.create it.name (st.out name)).out q).isSome ↔
          (st.out q).isSome ∨ it.name = q := fun q => isSome_create hsome
      obtain ⟨hnames, hiff⟩ := ih hlist (fun _ => (hout name).2 (Or.inl hsome)) hrest
      refine ⟨?_, fun q => by rw [hiff, hout]; simp [or_assoc]⟩
      intro it' hit
      rcases List.mem_cons.1 hit with rfl | hit
      · intro hempty
        rw [(hproper' hempty).2.2.2] at hlink
        cases hlink
      · exact hnames it' hit

lemma item_name (h : (v.item p).name ≠ []) : (v.item p).name = p := by
  unfold Visit.item hlListItemInit at h ⊢
  split_ifs at h ⊢
  · rfl
  · exact absurd rfl h

lemma wantedPath_eq_some {r : Record} (h : wantedPath dirs r = some p) :
    r.isEntry = true ∧ samsungTtsPathIsWanted p = true ∧
      ∃ path, makePathFromDirList dirs r.parentId r.name = some (.ok path) ∧ p = cString path := by
  rw [wantedPath] at h
  split_ifs at h with hentry
  split at h
  · next path hpath =>
    split_ifs at h with hwanted
    obtain rfl := Option.some.inj h
    exact ⟨hentry, hwanted, path, hpath, rfl⟩
  · cases h

lemma ne_nil_of_wanted (h : samsungTtsPathIsWanted p = true) : p ≠ [] := by
  rintro rfl
  revert h
  decide

/-- **What a run creates**, if no operation fails: an entry for each record that is wanted. -/
theorem isSome_out_iff {rootPath : Bytes} {faults : Faults}
    (h : unpackFiles img rootPath faults = some (0, st)) (hfailed : st.failed = false) :
    (st.out q).isSome ↔
      ∃ r ∈ img.children rootIno, wantedPath (img.folders rootPath) r = some q := by
  rcases unpackFiles_eq_zero h with ⟨st₁, -, hsteps, hlinks⟩ | ⟨_, _, _, st₁, -, -, -, -, -, rfl⟩
  case inr => cases hfailed
  have hfailed₁ := unpackHlinks_failed hlinks hfailed
  have hproper : ∀ it ∈ st₁.hlinks, it.Proper := by
    intro it hit
    obtain ⟨v, -, -, p, hp, rfl⟩ := hsteps.mem_hlinks_init.1 hit
    exact proper_item (ne_nil_of_wanted (wantedPath_eq_some hp).2.1)
  obtain ⟨hnames, hiff⟩ := unpackHlinks_isSome_iff hproper (fun h => absurd rfl h) hlinks hfailed
  rw [hiff, hsteps.isSome_iff hfailed₁, ← record_visits img faults]
  simp only [List.mem_map, exists_exists_and_eq_and]
  constructor
  · rintro ((hinit | ⟨v, hv, -, hp⟩) | ⟨it, hit, rfl⟩)
    · cases hinit
    · exact ⟨v, hv, hp⟩
    · obtain ⟨v, hv, -, p, hp, rfl⟩ := hsteps.mem_hlinks_init.1 hit
      exact ⟨v, hv, by rw [hp, item_name (hnames _ hit)]⟩
  · rintro ⟨v, hv, hp⟩
    by_cases htype : v.record.recordType = .hlink
    · have hit : v.item q ∈ st₁.hlinks :=
        hsteps.mem_hlinks_init.2 ⟨v, hv, htype, q, hp, rfl⟩
      exact Or.inr ⟨v.item q, hit, item_name (hnames _ hit)⟩
    · exact Or.inl (Or.inr ⟨v, hv, htype, hp⟩)

/-! ### What is wanted -/

/-- The speech tree, relative to the output folder. -/
def treePath : Bytes := utf8 "usr/share/voice/tts/smt_vd/"

/-- The engine libraries. -/
def enginePaths : List Bytes :=
  [utf8 "usr/lib/libSMT_engine_sh.so", utf8 "lib/libSMT_engine_sh.so"]

/-- The texts that the filter looks for. -/
def patterns : List Bytes := [speechTree, usrEngine, libEngine]

/-- The path is one of the speech files, as the notice of the installer has it. -/
def Speech (rel : Bytes) : Prop := treePath <+: rel ∨ rel ∈ enginePaths

/-- The path is wanted for another reason: one of the texts stands further down in it, it goes on
where the name of an engine library ends, or it completes a text that the path of the output folder
ends in. -/
inductive Stray (root rel : Bytes) : Prop
  | inside (pat : Bytes) (hpat : pat ∈ patterns) (h : pat <:+: rel)
  | longer (engine : Bytes) (hengine : engine ∈ enginePaths) (h : engine <+: rel)
  | straddling (a b : Bytes) (hpat : a ++ b ∈ patterns) (hlength : 2 ≤ a.length)
      (ha : a <:+ root ++ [slash]) (hb : b <+: rel)

lemma isWanted_iff : samsungTtsPathIsWanted p = true ↔ ∃ pat ∈ patterns, pat <:+: p := by
  simp [samsungTtsPathIsWanted, strstr, patterns, or_assoc]

/-- A text behind its slash is the speech tree or an engine library. -/
lemma tail_of_pattern {b : Bytes} (h : slash :: b ∈ patterns) : b = treePath ∨ b ∈ enginePaths := by
  have hpatterns : patterns = (treePath :: enginePaths).map (slash :: ·) := by decide
  rw [hpatterns, List.mem_map] at h
  obtain ⟨c, hc, heq⟩ := h
  obtain rfl := (List.cons.inj heq).2
  exact List.mem_cons.1 hc

lemma two_le_length_of_mem_patterns {pat : Bytes} (h : pat ∈ patterns) : 2 ≤ pat.length := by
  have hall : ∀ pat ∈ patterns, 2 ≤ pat.length := by decide
  exact hall pat h

/-- A text that the path of the output folder holds with its slash, but not without, ends there. -/
lemma suffix_of_infix_root {root pat : Bytes} (hpat : pat ∈ patterns) (hroot : ¬ pat <:+: root)
    (h : pat <:+: root ++ [slash]) : pat <:+ root ++ [slash] := by
  rcases List.infix_append_iff.1 h with h | h | ⟨a, b, rfl, ha, hb⟩
  · exact absurd h hroot
  · have hlength := h.length_le
    have := two_le_length_of_mem_patterns hpat
    simp only [List.length_singleton] at hlength
    omega
  · obtain ⟨pre, rfl⟩ := ha
    obtain ⟨post, hpost⟩ := hb
    cases b with
    | nil =>
      rw [List.append_nil] at hroot
      exact absurd (List.suffix_append pre a).isInfix hroot
    | cons c b =>
      obtain ⟨rfl, htail⟩ := List.cons.inj hpost
      obtain ⟨rfl, -⟩ := List.append_eq_nil_iff.1 htail
      exact ⟨pre, by rw [List.append_assoc]⟩

/-- **What the filter keeps**: the speech files and what strays into them. -/
theorem isWanted_append_iff {root rel : Bytes} (hroot : ∀ pat ∈ patterns, ¬ pat <:+: root) :
    samsungTtsPathIsWanted (root ++ slash :: rel) = true ↔ Speech rel ∨ Stray root rel := by
  have happend : root ++ slash :: rel = (root ++ [slash]) ++ rel := by simp
  rw [isWanted_iff, happend]
  constructor
  · rintro ⟨pat, hpat, h⟩
    rcases List.infix_append_iff.1 h with h | h | ⟨a, b, rfl, ha, hb⟩
    · have hsuffix := suffix_of_infix_root hpat (hroot pat hpat) h
      exact Or.inr (.straddling pat [] (by rwa [List.append_nil])
        (two_le_length_of_mem_patterns hpat) hsuffix List.nil_prefix)
    · exact Or.inr (.inside pat hpat h)
    · rcases Nat.lt_or_ge a.length 2 with hlt | hge
      · rcases a with _ | ⟨c, _ | ⟨d, a⟩⟩
        · exact Or.inr (.inside b hpat hb.isInfix)
        · -- the text begins at the slash of the output folder
          have hc : c = slash := by simpa using ha
          subst hc
          rcases tail_of_pattern hpat with rfl | hengine
          · exact Or.inl (Or.inl hb)
          · exact Or.inr (.longer b hengine hb)
        · simp only [List.length_cons] at hlt
          omega
      · exact Or.inr (.straddling a b hpat hge ha hb)
  · have hanchored : ∀ c ∈ treePath :: enginePaths, c <+: rel →
        ∃ pat ∈ patterns, pat <:+: (root ++ [slash]) ++ rel := by
      intro c hc hprefix
      have hpatterns : patterns = (treePath :: enginePaths).map (slash :: ·) := by decide
      refine ⟨slash :: c, hpatterns ▸ List.mem_map_of_mem hc, ?_⟩
      exact List.infix_append_iff.2 (Or.inr (Or.inr
        ⟨[slash], c, rfl, List.suffix_append root [slash], hprefix⟩))
    rintro ((htree | hengine) | ⟨pat, hpat, h⟩ | ⟨engine, hengine, h⟩ | ⟨a, b, hpat, -, ha, hb⟩)
    · exact hanchored _ List.mem_cons_self htree
    · exact hanchored _ (List.mem_cons_of_mem _ hengine) (List.prefix_refl rel)
    · exact ⟨pat, hpat, List.infix_append_iff.2 (Or.inr (Or.inl h))⟩
    · exact hanchored _ (List.mem_cons_of_mem _ hengine) h
    · exact ⟨_, hpat, List.infix_append_iff.2 (Or.inr (Or.inr ⟨a, b, rfl, ha, hb⟩))⟩

/-! ### The run keeps the speech files -/

/-- The path of an entry of the output, as the operating system gets it. -/
def outputPath (rootPath rel : Bytes) : Bytes := cString rootPath ++ slash :: cString rel

/-- The run has created an entry for each record of the speech files, and for no other. -/
def KeepsSpeech (img : Image) (rootPath : Bytes) (st : State) : Prop :=
  ∀ r ∈ img.children rootIno, r.isEntry = true →
    ∀ rel, relPath (img.folders rootPath) r = some rel →
    ((st.out (outputPath rootPath rel)).isSome ↔ Speech (cString rel))

/-- No record of the image strays into the speech files. -/
def NoStray (img : Image) (rootPath : Bytes) : Prop :=
  ∀ r ∈ img.children rootIno, r.isEntry = true →
    ∀ rel, relPath (img.folders rootPath) r = some rel →
    ¬ Speech (cString rel) → ¬ Stray (cString rootPath) (cString rel)

lemma cString_append_cons {rootPath rel : Bytes} :
    cString (cString rootPath ++ slash :: rel) = outputPath rootPath rel := by
  have hroot : ∀ c ∈ cString rootPath, c ≠ 0 := fun c hc => by
    simpa using List.mem_takeWhile_imp hc
  have hslash : (slash ≠ 0) := by decide
  simp only [outputPath, cString] at hroot ⊢
  rw [List.takeWhile_append_of_pos (fun c hc => decide_eq_true (hroot c hc))]
  simp [hslash]

lemma Image.rooted_folders (img : Image) (rootPath : Bytes) :
    Rooted (cString rootPath) (img.folders rootPath) := by
  refine rooted_foldl rooted_root fun r hr => ?_
  have hle := img.le_parentId_of_mem_children hr
  have : rootIno = 1 := rfl
  omega

/-- The path under which a record is wanted is its own. -/
lemma wantedPath_iff {rootPath rel : Bytes} {r : Record} (hr : r ∈ img.children rootIno)
    (hentry : r.isEntry = true) (hrel : relPath (img.folders rootPath) r = some rel) :
    wantedPath (img.folders rootPath) r = some q ↔
      samsungTtsPathIsWanted q = true ∧ q = outputPath rootPath rel := by
  have hle := img.le_parentId_of_mem_children hr
  have hzero : r.parentId ≠ 0 := by
    have : rootIno = 1 := rfl
    omega
  have hpath := (makePathFromDirList_eq_ok_iff (img.rooted_folders rootPath) hzero).2
    ⟨rel, hrel, rfl⟩
  simp only [wantedPath, hentry, if_true, hpath, cString_append_cons]
  split_ifs with hwanted
  · rw [Option.some.injEq]
    constructor
    · rintro rfl
      exact ⟨hwanted, rfl⟩
    · exact fun h => h.2.symm
  · simp only [false_iff, not_and]
    rintro h rfl
    exact hwanted h

/-- **The filter keeps just the speech files if nothing strays into them.**  In a run in which no
operation fails, to an output folder whose path has none of the three texts in it, an entry is
created for just the records of the speech files if and only if no other record of the image has one
of the texts further down in its path, goes on behind the name of an engine library, or completes a
text that the path of the output folder ends in. -/
theorem keepsSpeech_iff {rootPath : Bytes} {faults : Faults}
    (h : unpackFiles img rootPath faults = some (0, st)) (hfailed : st.failed = false)
    (hroot : ∀ pat ∈ patterns, ¬ pat <:+: cString rootPath) :
    KeepsSpeech img rootPath st ↔ NoStray img rootPath := by
  have hout : ∀ r ∈ img.children rootIno, r.isEntry = true → ∀ rel,
      relPath (img.folders rootPath) r = some rel →
      ((st.out (outputPath rootPath rel)).isSome ↔
        Speech (cString rel) ∨ Stray (cString rootPath) (cString rel)) := by
    intro r hr hentry rel hrel
    rw [isSome_out_iff h hfailed, ← isWanted_append_iff hroot]
    constructor
    · rintro ⟨r', -, hp⟩
      exact (wantedPath_eq_some hp).2.1
    · intro hwanted
      exact ⟨r, hr, (wantedPath_iff hr hentry hrel).2 ⟨hwanted, rfl⟩⟩
  constructor
  · intro hkeeps r hr hentry rel hrel hspeech hstray
    exact hspeech ((hkeeps r hr hentry rel hrel).1 ((hout r hr hentry rel hrel).2 (Or.inr hstray)))
  · intro hno r hr hentry rel hrel
    rw [hout r hr hentry rel hrel]
    constructor
    · rintro (hspeech | hstray)
      · exact hspeech
      · by_contra hspeech
        exact hno r hr hentry rel hrel hspeech hstray
    · exact Or.inl

/-- The output folder of the installer. -/
def extracted : Bytes := utf8 "/tmp/extracted"

/-- An image with an empty file of the name of the engine library in the folder `lib`, which lies
in the folder of the name. -/
def engineImage (above : Bytes) : Image where
  catalog :=
    [{ parentId := 1, objectId := 9, name := above, recordType := .folder },
      { parentId := 9, objectId := 10, name := utf8 "lib", recordType := .folder },
      { parentId := 10, objectId := 11, name := utf8 "libSMT_engine_sh.so", recordType := .file }]
  blockSize := 4
  data := [1, 2, 3, 4]
  decodeFile bytes := (0, bytes)
  authenticated _ := false
  sorted := by simp
  blockSize_pos := by decide
  length_data_lt := by decide

/-- How a run comes out that goes well and leaves the path `p` with an entry. -/
lemma exists_run {img : Image} {rootPath : Bytes} {faults : Faults}
    (h : (unpackFiles img rootPath faults).map (fun x => (x.1, x.2.failed, (x.2.out p).isSome)) =
      some (0, false, true)) :
    ∃ st, unpackFiles img rootPath faults = some (0, st) ∧ st.failed = false ∧
      (st.out p).isSome := by
  obtain ⟨⟨ret, st⟩, hrun, hresult⟩ := Option.map_eq_some_iff.1 h
  simp only [Prod.mk.injEq] at hresult
  obtain ⟨rfl, hfailed, hout⟩ := hresult
  exact ⟨st, hrun, hfailed, hout⟩

/-- **A file elsewhere is kept as well**: `opt/lib/libSMT_engine_sh.so` is no speech file. -/
theorem not_keepsSpeech_engineImage :
    ∃ st, unpackFiles (engineImage (utf8 "opt")) extracted {} = some (0, st) ∧ st.failed = false ∧
      (∀ pat ∈ patterns, ¬ pat <:+: cString extracted) ∧
      ¬ KeepsSpeech (engineImage (utf8 "opt")) extracted st := by
  obtain ⟨st, hrun, hfailed, hout⟩ := exists_run
    (p := outputPath extracted (utf8 "opt/lib/libSMT_engine_sh.so"))
    (show (unpackFiles (engineImage (utf8 "opt")) extracted {}).map _ = _ by decide)
  refine ⟨st, hrun, hfailed, by decide, fun hkeeps => ?_⟩
  have hspeech := (hkeeps
    { parentId := 10, objectId := 11, name := utf8 "libSMT_engine_sh.so", recordType := .file }
    (by decide) (by decide) (utf8 "opt/lib/libSMT_engine_sh.so") (by decide)).1 hout
  have hno : ¬ Speech (cString (utf8 "opt/lib/libSMT_engine_sh.so")) := by
    unfold Speech
    decide
  exact hno hspeech

/-- The engine library where it belongs is kept. -/
theorem keepsSpeech_engineImage :
    ∃ st, unpackFiles (engineImage (utf8 "usr")) extracted {} = some (0, st) ∧ st.failed = false ∧
      (KeepsSpeech (engineImage (utf8 "usr")) extracted st ↔
        NoStray (engineImage (utf8 "usr")) extracted) := by
  obtain ⟨st, hrun, hfailed, -⟩ := exists_run
    (p := outputPath extracted (utf8 "usr/lib/libSMT_engine_sh.so"))
    (show (unpackFiles (engineImage (utf8 "usr")) extracted {}).map _ = _ by decide)
  exact ⟨st, hrun, hfailed, keepsSpeech_iff hrun hfailed (by decide)⟩

end SamsungTVVoices.Extractor
