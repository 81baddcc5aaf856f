/-
When a successful unpack is a whole one.

`Whole` says that every wanted record could be read, decoded, mapped and written, and that the
output has what it stands for at its path.  A run may return 0 without that, since the tool does not
test everything: `Heeded` lists what must not happen to a wanted record.  For a `FILE` record these
are a failing read, a short write, a decompressor that returns 0 early and a block that is looked up
wrongly; for a `DLINK` or `HLINK` record it is any failure at all, since its code is overwritten.

`whole_iff` is the result for every run: `Heeded` is enough (`whole_of_heeded`), by what each record
and each hard link does, and nothing less is (`heeded_of_whole`) for a `Regular` catalog, in which
what is at a path can only have been created for one record.
-/
import SamsungTVVoices.Extractor.Filter

namespace SamsungTVVoices.Extractor

variable {img : Image} {dirs : List DirItem} {v : Visit} {vs : List Visit} {st st' : State}
  {p q : Bytes} {plain : ℕ}

/-! ### What a record stands for -/

/-- The logical contents of a record. -/
def Image.contents (img : Image) (r : Record) : Option Entry :=
  match r.recordType with
  | .file => img.fileEntry r.objectId r
  | .dlink => img.dlinkEntry r
  | .hlink => img.hlinkEntry r.objectId
  | _ => none

/-- A `FILE` record could be unpacked. -/
def FileDone (img : Image) (o : Outcomes) (obj : ℕ) (r : Record) : Prop :=
  if r.isSpecial then o.mknod = true else BodyDone img o obj r

/-- The record could be read, decoded, mapped and written. -/
def Done (img : Image) (v : Visit) : Prop :=
  match v.record.recordType with
  | .file => FileDone img v.calls v.record.objectId v.record
  | .dlink => DlinkDone img v.calls v.record
  | .hlink => HlinkDone img v.calls v.record.objectId
  | _ => True

/-- The record could be unpacked, and is at its path in the output with just its contents. -/
def WholeAt (img : Image) (st : State) (v : Visit) (p : Bytes) : Prop :=
  Done img v ∧ ∃ x, img.contents v.record = some x ∧ st.out p = some x

/-- **The output is whole**: this holds of every wanted record of the image. -/
def Whole (img : Image) (rootPath : Bytes) (faults : Faults) (st : State) : Prop :=
  ∀ v ∈ img.visits faults, ∀ p, wantedPath (img.folders rootPath) v.record = some p →
    WholeAt img st v p

/-! ### What must not happen -/

/-- Nothing happens to a `FILE` record that the tool takes for a success. -/
def FileSound (img : Image) (v : Visit) : Prop :=
  v.record.isSpecial = false → BodySound img v.calls v.record.objectId v.record

/-- Nothing fails for a record that is wanted at `p` in a way that the tool does not report.  A hard
link has the inode of a file, and a path that is not too long to be kept. -/
def Sound (img : Image) (v : Visit) (p : Bytes) : Prop :=
  match v.record.recordType with
  | .file => FileSound img v
  | .dlink => DlinkSound img v.calls v.record
  | .hlink => firstFileIno ≤ v.record.objectId ∧ p.length ≤ fullPathLen ∧
      ∃ b, HlinkSound img v.calls v.record.objectId b
  | _ => True

/-- The data link that a record is, or is a hard link to. -/
def Image.dataLink (img : Image) (r : Record) : Option Record :=
  match r.recordType with
  | .dlink => some r
  | .hlink => (img.hlinkBody r.objectId).filter fun b => b.recordType = .dlink
  | _ => none

/-- The data links in `vs` that are wanted have `plain` as the one data inode that is not
compressed. -/
def OnePlain (img : Image) (dirs : List DirItem) (plain : ℕ) (vs : List Visit) : Prop :=
  ∀ v ∈ vs, wantedPath dirs v.record ≠ none → ∀ d, img.dataLink v.record = some d →
    img.PlainData d → d.dataInode = plain

/-- The records have paths of their own. -/
def OwnPaths (dirs : List DirItem) (vs : List Visit) : Prop :=
  vs.Pairwise fun u v => ∀ p, wantedPath dirs u.record = some p → wantedPath dirs v.record ≠ some p

/-- **What the tool does not heed does not happen** to a wanted record: none is unpacked to the path
of another, all of them are sound, not two data inodes that are not compressed are used, and where
the catalog cannot be read on no wanted record follows, nor is there a hard link before. -/
structure Heeded (img : Image) (rootPath : Bytes) (faults : Faults) : Prop where
  paths : OwnPaths (img.folders rootPath) (img.visits faults)
  sound : ∀ v ∈ img.visits faults, ∀ p, wantedPath (img.folders rootPath) v.record = some p →
    Sound img v p
  plain : ∃ plain, OnePlain img (img.folders rootPath) plain (img.visits faults)
  next : ∀ pre v post, img.visits faults = pre ++ v :: post → post ≠ [] → v.calls.next = false →
    (∀ u ∈ post, wantedPath (img.folders rootPath) u.record = none) ∧
    ∀ u ∈ pre ++ [v], u.record.recordType = .hlink →
      wantedPath (img.folders rootPath) u.record = none

/-! ### The records -/

/-- What is not unpacked stays as it is. -/
lemma Steps.out_eq (h : Steps img dirs vs st st') (hq : ∀ v ∈ vs, v.record.recordType ≠ .hlink →
    wantedPath dirs v.record ≠ some q) : st'.out q = st.out q := by
  induction h with
  | nil => rfl
  | skip _ _ ih => exact ih fun v hv => hq v (List.mem_cons_of_mem _ hv)
  | made hv hmade _ ih =>
    rw [ih fun v hv => hq v (List.mem_cons_of_mem _ hv)]
    have hhead := hq _ List.mem_cons_self
    cases hmade with
    | file entry htype h =>
      refine State.create_out_of_ne _ _ fun heq => hhead (by simp [htype]) (heq ▸ hv)
    | dlink ret entry dl htype h =>
      exact State.create_out_of_ne _ _ fun heq => hhead (by simp [htype]) (heq ▸ hv)
    | hlink htype => rfl

/-- A `FILE` record that is created without an error is whole. -/
lemma unpackFile_whole {o : Outcomes} {obj : ℕ} {r : Record} {entry : Option Entry}
    (hsound : r.isSpecial = false → BodySound img o obj r)
    (h : unpackFile img o obj r = some (0, entry)) :
    FileDone img o obj r ∧ ∃ x, img.fileEntry obj r = some x ∧ entry = some x := by
  rw [unpackFile] at h
  rw [FileDone, Image.fileEntry]
  cases hspecial : r.isSpecial with
  | true =>
    simp only [hspecial, if_true, createSpecFile, Option.some.injEq] at h ⊢
    by_cases hmknod : o.mknod = true
    · rw [if_pos hmknod] at h
      exact ⟨hmknod, _, rfl, (Prod.mk.inj h).2.symm⟩
    · rw [if_neg hmknod] at h
      exact absurd (Prod.mk.inj h).1 (by decide)
  | false =>
    simp only [hspecial, Bool.false_eq_true, if_false] at h ⊢
    obtain ⟨hentry, hdone⟩ := createContents_sound (hsound hspecial) h
    exact ⟨hdone, hentry⟩

/-- What one record does if it is sound: the open files hold what they should, and what is created
is whole. -/
lemma Unpacked.whole (h : Unpacked img v p st st') (hholds : st.dl.Holds img plain)
    (hsound : Sound img v p)
    (hplain : ∀ d, img.dataLink v.record = some d → img.PlainData d → d.dataInode = plain) :
    st'.dl.Holds img plain ∧ (v.record.recordType ≠ .hlink → WholeAt img st' v p) := by
  cases h with
  | file entry htype h =>
    simp only [Sound, htype] at hsound
    obtain ⟨hdone, x, hx, rfl⟩ := unpackFile_whole hsound h
    refine ⟨hholds, fun _ => ⟨by simpa [Done, htype] using hdone, x, ?_, by simp⟩⟩
    simpa [Image.contents, htype] using hx
  | dlink ret entry dl htype h =>
    simp only [Sound, htype] at hsound
    obtain ⟨-, rfl, hholds'⟩ := processDlinkUnpack_sound hholds hsound
      (hplain v.record (by simp [Image.dataLink, htype])) h
    obtain ⟨x, hx⟩ := hsound.entry
    refine ⟨hholds', fun _ => ⟨by simpa [Done, htype] using hsound.done, x, ?_, ?_⟩⟩
    · simpa [Image.contents, htype] using hx
    · simp [hx]
  | hlink htype => exact ⟨hholds, fun hne => absurd htype hne⟩

/-- What the records do if they are sound. -/
lemma Steps.whole (h : Steps img dirs vs st st') (hholds : st.dl.Holds img plain)
    (hpaths : OwnPaths dirs vs)
    (hsound : ∀ v ∈ vs, ∀ p, wantedPath dirs v.record = some p → Sound img v p)
    (hplain : OnePlain img dirs plain vs) :
    st'.dl.Holds img plain ∧ ∀ v ∈ vs, v.record.recordType ≠ .hlink →
      ∀ p, wantedPath dirs v.record = some p → WholeAt img st' v p := by
  induction h with
  | nil => exact ⟨hholds, fun v hv => absurd hv List.not_mem_nil⟩
  | skip hv _ ih =>
    obtain ⟨hholds', hrest⟩ := ih hholds hpaths.of_cons
      (fun u hu => hsound u (List.mem_cons_of_mem _ hu))
      (fun u hu => hplain u (List.mem_cons_of_mem _ hu))
    refine ⟨hholds', fun u hu htype p hp => ?_⟩
    rcases List.mem_cons.1 hu with rfl | hu
    · rw [hv] at hp
      cases hp
    · exact hrest u hu htype p hp
  | made hv hmade hsteps ih =>
    obtain ⟨hholds₁, hhead⟩ := hmade.whole hholds (hsound _ List.mem_cons_self _ hv)
      (hplain _ List.mem_cons_self (by simp [hv]))
    obtain ⟨hholds', hrest⟩ := ih hholds₁ hpaths.of_cons
      (fun u hu => hsound u (List.mem_cons_of_mem _ hu))
      (fun u hu => hplain u (List.mem_cons_of_mem _ hu))
    refine ⟨hholds', fun u hu htype p hp => ?_⟩
    rcases List.mem_cons.1 hu with rfl | hu
    · -- the records that follow have other paths
      obtain rfl := Option.some.inj (hv.symm.trans hp)
      obtain ⟨hdone, x, hx, hout⟩ := hhead htype
      refine ⟨hdone, x, hx, ?_⟩
      rw [hsteps.out_eq fun w hw _ => (List.pairwise_cons.1 hpaths).1 w hw _ hv, hout]
    · exact hrest u hu htype p hp

/-! ### The hard links -/

variable {list : List HlinkItem} {objId : ℕ} {name : Bytes}

/-- What is not linked stays as it is. -/
lemma unpackHlinks_out_eq (h : unpackHlinks img list objId name st = some (0, st'))
    (hq : ∀ it ∈ list, firstFileIno ≤ it.inoN → it.name ≠ q) : st'.out q = st.out q := by
  induction list generalizing objId name st with
  | nil =>
    obtain rfl := (Prod.mk.inj (Option.some.inj h)).2
    rfl
  | cons it list ih =>
    have hhead := hq it List.mem_cons_self
    have hrest := fun it' hit => hq it' (List.mem_cons_of_mem it hit)
    rcases unpackHlinks_cons h with ⟨-, rfl⟩ | ⟨hino, -, result, -, h⟩ | ⟨hino, -, -, h⟩
    · rfl
    · rw [ih h hrest]
      exact State.create_out_of_ne _ _ (hhead hino).symm
    · rw [ih h hrest]
      exact State.create_out_of_ne _ _ (hhead hino).symm

/-- A hard link of a file can be unpacked, from a body whose data inode is `plain` if it is not
compressed. -/
def HlinkItem.Sound (img : Image) (plain : ℕ) (it : HlinkItem) : Prop :=
  firstFileIno ≤ it.inoN ∧ ∃ b, HlinkSound img it.calls it.inoN b ∧
    (b.recordType = .dlink → img.PlainData b → b.dataInode = plain)

/-- The name has the contents of the inode. -/
def Linked (img : Image) (st : State) (ino : ℕ) (name : Bytes) : Prop :=
  ∃ x, img.hlinkEntry ino = some x ∧ st.out name = some x

/-- **Every hard link gets the contents of its body**, from the body itself or from the link
before. -/
lemma unpackHlinks_whole (hholds : st.dl.Holds img plain) (hlist : ∀ it ∈ list, it.Sound img plain)
    (hsame : ∀ it ∈ list, ∀ it' ∈ list, it.name = it'.name → it.inoN = it'.inoN)
    (hname : objId ≠ 0 → Linked img st objId name)
    (h : unpackHlinks img list objId name st = some (0, st')) :
    ∀ it ∈ list, Linked img st' it.inoN it.name := by
  induction list generalizing objId name st with
  | nil => exact fun it hit => absurd hit List.not_mem_nil
  | cons it list ih =>
    have hlist' : ∀ it' ∈ list, it'.Sound img plain :=
      fun it' hit => hlist it' (List.mem_cons_of_mem _ hit)
    have hsame' : ∀ it₁ ∈ list, ∀ it₂ ∈ list, it₁.name = it₂.name → it₁.inoN = it₂.inoN :=
      fun it₁ h₁ it₂ h₂ => hsame it₁ (List.mem_cons_of_mem _ h₁) it₂ (List.mem_cons_of_mem _ h₂)
    obtain ⟨hino, b, hsound, hplain⟩ := hlist it List.mem_cons_self
    have hpos : it.inoN ≠ 0 := by
      have : 0 < firstFileIno := by decide
      omega
    -- once the first link has its contents, the rest keeps them or gives it the same again
    have hfinish : ∀ {st₁ : State}, Linked img st₁ it.inoN it.name →
        (∀ it' ∈ list, Linked img st' it'.inoN it'.name) →
        ((∀ it' ∈ list, firstFileIno ≤ it'.inoN → it'.name ≠ it.name) →
          st'.out it.name = st₁.out it.name) →
        ∀ it' ∈ it :: list, Linked img st' it'.inoN it'.name := by
      intro st₁ hlinked hrest hkeep it' hit
      rcases List.mem_cons.1 hit with rfl | hit
      · by_cases hagain : ∃ it'' ∈ list, it''.name = it'.name
        · obtain ⟨it'', hit'', heq⟩ := hagain
          have hinos := hsame it'' (List.mem_cons_of_mem _ hit'') it' List.mem_cons_self heq
          rw [← heq, ← hinos]
          exact hrest it'' hit''
        · obtain ⟨x, hx, hout⟩ := hlinked
          refine ⟨x, hx, ?_⟩
          rw [hkeep fun it'' hit'' _ heq => hagain ⟨it'', hit'', heq⟩, hout]
      · exact hrest it' hit
    rcases unpackHlinks_cons h with ⟨hlt, -⟩ | ⟨-, -, ⟨ret, entry, dl⟩, hcreate, h⟩ |
      ⟨-, rfl, -, h⟩
    · exact absurd hlt (Nat.not_lt.2 hino)
    · -- the first link of the inode
      obtain ⟨⟨x, hx, rfl⟩, hholds'⟩ := createHlink_sound hholds hsound hplain hcreate
      have hlinked : Linked img (st.linked it (ret, some x, dl)) it.inoN it.name :=
        ⟨x, hx, State.create_out_self ..⟩
      exact hfinish hlinked (ih hholds' hlist' hsame' (fun _ => hlinked) h)
        (unpackHlinks_out_eq h)
    · -- another one
      obtain ⟨x, hx, hout⟩ := hname hpos
      have hlinked : Linked img (st.create it.name (st.out name)) it.inoN it.name :=
        ⟨x, hx, by rw [hout, State.create_out_self]⟩
      have hbefore : Linked img (st.create it.name (st.out name)) it.inoN name := by
        refine ⟨x, hx, ?_⟩
        by_cases heq : name = it.name
        · rw [heq, ← heq, hout, heq, State.create_out_self]
        · rw [State.create_out_of_ne _ _ heq, hout]
      have hholds' : (st.create it.name (st.out name)).dl.Holds img plain := hholds
      exact hfinish hlinked (ih hholds' hlist' hsame' (fun _ => hbefore) h)
        (unpackHlinks_out_eq h)

/-! ### The whole run -/

/-- Two visits with one path are the same. -/
lemma OwnPaths.eq_of_wantedPath (h : OwnPaths dirs vs) {u w : Visit} (hu : u ∈ vs) (hw : w ∈ vs)
    (hup : wantedPath dirs u.record = some p) (hwp : wantedPath dirs w.record = some p) :
    u = w := by
  induction h with
  | nil => cases hu
  | cons hhead _ ih =>
    rcases List.mem_cons.1 hu with rfl | hu' <;> rcases List.mem_cons.1 hw with rfl | hw'
    · rfl
    · exact absurd hwp (hhead w hw' p hup)
    · exact absurd hup (hhead u hu' p hwp)
    · exact ih hu' hw'

lemma name_item_of_le (h : p.length ≤ fullPathLen) :
    (v.item p).name = p ∧ (v.item p).inoN = v.record.objectId ∧ (v.item p).calls = v.calls := by
  simp [Visit.item, hlListItemInit, h]

lemma length_of_item_name (h : (v.item p).name ≠ []) : p.length ≤ fullPathLen := by
  unfold Visit.item hlListItemInit at h
  split_ifs at h with hlength
  · exact hlength
  · exact absurd rfl h

/-- Where no record has the path of another, a hard link at the path of a record is that record. -/
lemma Steps.eq_item {it : HlinkItem} (h : Steps img dirs vs .init st) (hpaths : OwnPaths dirs vs)
    (hit : it ∈ st.hlinks) (hv : v ∈ vs) (hp : wantedPath dirs v.record = some p)
    (hname : it.name = p) :
    v.record.recordType = .hlink ∧ it = v.item p ∧ p.length ≤ fullPathLen := by
  obtain ⟨w, hw, hlink, q, hq, rfl⟩ := h.mem_hlinks_init.1 hit
  have hne : (w.item q).name ≠ [] := hname ▸ ne_nil_of_wanted (wantedPath_eq_some hp).2.1
  obtain rfl : q = p := (item_name hne).symm.trans hname
  obtain rfl := hpaths.eq_of_wantedPath hw hv hq hp
  exact ⟨hlink, rfl, length_of_item_name hne⟩

/-- The hard link of a sound record is sound. -/
lemma sound_item (htype : v.record.recordType = .hlink) (hsound : Sound img v p)
    (hplain : ∀ d, img.dataLink v.record = some d → img.PlainData d → d.dataInode = plain) :
    (v.item p).Sound img plain := by
  simp only [Sound, htype] at hsound
  obtain ⟨hino, hlength, b, hb⟩ := hsound
  obtain ⟨-, hinoN, hcalls⟩ := name_item_of_le (v := v) hlength
  rw [HlinkItem.Sound, hinoN, hcalls]
  refine ⟨hino, b, hb, fun hdlink => hplain b ?_⟩
  simp [Image.dataLink, htype, hb.body, hdlink]

/-- **A run that comes to its end is whole.** -/
lemma whole_of_steps {st₁ : State} (hsteps : Steps img dirs vs .init st₁)
    (hlinks : unpackHlinks img st₁.hlinks 0 [] st₁ = some (0, st')) (hpaths : OwnPaths dirs vs)
    (hsound : ∀ v ∈ vs, ∀ p, wantedPath dirs v.record = some p → Sound img v p)
    (hplain : OnePlain img dirs plain vs) :
    ∀ v ∈ vs, ∀ p, wantedPath dirs v.record = some p → WholeAt img st' v p := by
  obtain ⟨hholds, hrecords⟩ := hsteps.whole DlinkInfo.holds_init hpaths hsound hplain
  have hitems : ∀ it ∈ st₁.hlinks, ∃ v ∈ vs, v.record.recordType = .hlink ∧
      ∃ p, wantedPath dirs v.record = some p ∧ it = v.item p ∧ it.name = p ∧
        it.inoN = v.record.objectId := by
    intro it hit
    obtain ⟨v, hv, htype, p, hp, rfl⟩ := hsteps.mem_hlinks_init.1 hit
    have hlength : p.length ≤ fullPathLen := by
      have := hsound v hv p hp
      simp only [Sound, htype] at this
      exact this.2.1
    obtain ⟨hname, hino, -⟩ := name_item_of_le (v := v) hlength
    exact ⟨v, hv, htype, p, hp, rfl, hname, hino⟩
  have hall := unpackHlinks_whole hholds
    (fun it hit => by
      obtain ⟨v, hv, htype, p, hp, rfl, -, -⟩ := hitems it hit
      exact sound_item htype (hsound v hv p hp) (hplain v hv (by simp [hp])))
    (fun it hit it' hit' heq => by
      obtain ⟨u, hu, -, p, hup, -, hname, hino⟩ := hitems it hit
      obtain ⟨w, hw, -, p', hwp, -, hname', hino'⟩ := hitems it' hit'
      obtain rfl : p = p' := by rw [← hname, heq, hname']
      rw [hino, hino', hpaths.eq_of_wantedPath hu hw hup hwp])
    (fun h => absurd rfl h) hlinks
  intro v hv p hp
  by_cases htype : v.record.recordType = .hlink
  · have hsoundv := hsound v hv p hp
    simp only [Sound, htype] at hsoundv
    obtain ⟨-, hlength, b, hb⟩ := hsoundv
    obtain ⟨hname, hino, -⟩ := name_item_of_le (v := v) hlength
    obtain ⟨x, hx, hout⟩ := hall (v.item p)
      (hsteps.mem_hlinks_init.2 ⟨v, hv, htype, p, hp, rfl⟩)
    rw [hino] at hx
    rw [hname] at hout
    refine ⟨?_, x, ?_, hout⟩
    · simpa [Done, htype] using hlinkDone_of_sound hb
    · simpa [Image.contents, htype] using hx
  · obtain ⟨hdone, x, hx, hout⟩ := hrecords v hv htype p hp
    refine ⟨hdone, x, hx, ?_⟩
    rw [unpackHlinks_out_eq hlinks, hout]
    intro it hit _ hname
    exact htype (hsteps.eq_item hpaths hit hv hp hname).1

/-- **A run that returns 0 is whole if nothing happens that the tool does not heed.** -/
theorem whole_of_heeded {rootPath : Bytes} {faults : Faults}
    (h : unpackFiles img rootPath faults = some (0, st)) (hheeded : Heeded img rootPath faults) :
    Whole img rootPath faults st := by
  obtain ⟨plain, hplain⟩ := hheeded.plain
  rcases unpackFiles_eq_zero h with ⟨st₁, -, hsteps, hlinks⟩ |
    ⟨pre, v, post, st₁, hvisits, hpost, hnext, -, hsteps, rfl⟩
  · exact whole_of_steps hsteps hlinks hheeded.paths hheeded.sound hplain
  · -- the catalog could not be read on
    obtain ⟨hafter, hbefore⟩ := hheeded.next pre v post hvisits hpost hnext
    have hsplit : img.visits faults = (pre ++ [v]) ++ post := by rw [hvisits, List.append_cons]
    have hmem : ∀ u ∈ pre ++ [v], u ∈ img.visits faults := fun u hu => by
      rw [hsplit]
      exact List.mem_append_left _ hu
    have hpaths : OwnPaths (img.folders rootPath) (pre ++ [v]) := by
      have := hheeded.paths
      rw [hsplit] at this
      exact (List.pairwise_append.1 this).1
    obtain ⟨-, hrecords⟩ := hsteps.whole DlinkInfo.holds_init hpaths
      (fun u hu => hheeded.sound u (hmem u hu)) (fun u hu => hplain u (hmem u hu))
    intro u hu p hp
    rw [hsplit] at hu
    rcases List.mem_append.1 hu with hu | hu
    · refine hrecords u hu (fun htype => ?_) p hp
      rw [hbefore u hu htype] at hp
      cases hp
    · rw [hafter u hu] at hp
      cases hp

/-! ### The other way -/

variable {x : Entry}

/-- The entry can have been created for the record, which is no hard link. -/
def Created (img : Image) (v : Visit) (x : Entry) : Prop :=
  (v.record.recordType = .file ∧
    unpackFile img v.calls v.record.objectId v.record = some (0, some x)) ∨
  (v.record.recordType = .dlink ∧
    ∃ ret dl dl', processDlinkUnpack img v.calls v.record dl = some (ret, some x, dl'))

lemma Unpacked.created (h : Unpacked img v p st st') (hx : st'.out q = some x) :
    st.out q = some x ∨ (p = q ∧ Created img v x) := by
  have hcreate : ∀ entry, (st.create p entry).out q = some x →
      st.out q = some x ∨ (p = q ∧ entry = some x) := by
    intro entry hx
    by_cases hq : q = p
    · subst hq
      cases entry with
      | none => exact Or.inl hx
      | some e => exact Or.inr ⟨rfl, (st.create_out_self q e).symm.trans hx⟩
    · rw [State.create_out_of_ne _ _ hq] at hx
      exact Or.inl hx
  cases h with
  | file entry htype h =>
    rcases hcreate entry hx with hx | ⟨rfl, rfl⟩
    · exact Or.inl hx
    · exact Or.inr ⟨rfl, Or.inl ⟨htype, h⟩⟩
  | dlink ret entry dl htype h =>
    rcases hcreate entry hx with hx | ⟨rfl, rfl⟩
    · exact Or.inl hx
    · exact Or.inr ⟨rfl, Or.inr ⟨htype, ret, _, dl, h⟩⟩
  | hlink htype => exact Or.inl hx

/-- What is in the output has been created for a record that is wanted there. -/
lemma Steps.created (h : Steps img dirs vs st st') (hx : st'.out q = some x) :
    st.out q = some x ∨ ∃ v ∈ vs, wantedPath dirs v.record = some q ∧ Created img v x := by
  induction h with
  | nil => exact Or.inl hx
  | skip _ _ ih =>
    rcases ih hx with hx | ⟨u, hu, hcreated⟩
    · exact Or.inl hx
    · exact Or.inr ⟨u, List.mem_cons_of_mem _ hu, hcreated⟩
  | made hv hmade _ ih =>
    rcases ih hx with hx | ⟨u, hu, hcreated⟩
    · rcases hmade.created hx with hx | ⟨rfl, hcreated⟩
      · exact Or.inl hx
      · exact Or.inr ⟨_, List.mem_cons_self, hv, hcreated⟩
    · exact Or.inr ⟨u, List.mem_cons_of_mem _ hu, hcreated⟩

/-- Where no record has the path of another, what is in the output at the path of a record has been
created for it. -/
lemma Steps.created_of_wanted {ws : List Visit} (h : Steps img dirs vs .init st)
    (hsub : ∀ u ∈ vs, u ∈ ws) (hpaths : OwnPaths dirs ws) (hv : v ∈ ws)
    (hp : wantedPath dirs v.record = some p) (hx : st.out p = some x) :
    v ∈ vs ∧ Created img v x := by
  rcases h.created hx with hinit | ⟨u, hu, hup, hcreated⟩
  · cases hinit
  · obtain rfl := hpaths.eq_of_wantedPath (hsub u hu) hv hup hp
    exact ⟨hu, hcreated⟩

/-- The data of a data link is not cut off by the numbers of the tool: inode 0 stands for no
open file, and `lseek` takes a signed offset. -/
def InReach (d : Record) : Prop := d.dataInode ≠ 0 ∧ d.dataOffset < 2 ^ 63

/-- **A record that is whole is sound.** -/
lemma Created.sound (h : Created img v x) (hdone : Done img v)
    (hx : img.contents v.record = some x)
    (hreach : ∀ d, img.dataLink v.record = some d → InReach d) : Sound img v p := by
  rcases h with ⟨htype, h⟩ | ⟨htype, ret, dl, dl', h⟩
  · simp only [Done, Image.contents, Sound, htype] at hdone hx ⊢
    intro hspecial
    rw [FileDone, hspecial, if_neg Bool.false_ne_true] at hdone
    rw [Image.fileEntry, hspecial, if_neg Bool.false_ne_true] at hx
    rw [unpackFile, hspecial, if_neg Bool.false_ne_true] at h
    exact bodySound_of_done hdone hx (createContents_clean h)
  · obtain ⟨hinode, hoffset⟩ := hreach v.record (by simp [Image.dataLink, htype])
    simp only [Done, Image.contents, Sound, htype] at hdone hx ⊢
    exact dlinkSound_of_done hdone hx (processDlinkUnpack_clean h) hinode hoffset

/-- What is at the path can be created from the body of a link. -/
def State.CleanAt (st : State) (q : Bytes) : Prop := ∀ x, st.out q = some x → x.Clean

lemma State.CleanAt.create (h : st.CleanAt q) {entry : Option Entry}
    (hentry : ∀ x, entry = some x → x.Clean) : (st.create name entry).CleanAt q := by
  intro x hx
  by_cases hq : q = name
  · subst hq
    cases entry with
    | none => exact h x hx
    | some e => exact hentry x ((st.create_out_self q e).symm.trans hx)
  · rw [State.create_out_of_ne _ _ hq] at hx
    exact h x hx

/-- Hard links are made of what can be created from the body of one. -/
lemma unpackHlinks_cleanAt (hlist : ∀ it ∈ list, st.CleanAt it.name)
    (hname : objId ≠ 0 → st.CleanAt name) (hq : st.CleanAt q)
    (h : unpackHlinks img list objId name st = some (0, st')) : st'.CleanAt q := by
  induction list generalizing objId name st with
  | nil =>
    obtain rfl := (Prod.mk.inj (Option.some.inj h)).2
    exact hq
  | cons it list ih =>
    -- the entry that is created is clean, so it leaves the rest so
    have hcreate : ∀ {entry : Option Entry} {st₁ : State}, (∀ x, entry = some x → x.Clean) →
        st₁.out = (st.create it.name entry).out → ∀ {q'}, st.CleanAt q' → st₁.CleanAt q' := by
      intro entry st₁ hentry hout q' hq' x hx
      rw [hout] at hx
      exact hq'.create hentry x hx
    have hhead := hlist it List.mem_cons_self
    rcases unpackHlinks_cons h with ⟨-, rfl⟩ | ⟨-, -, ⟨ret, entry, dl⟩, hlink, h⟩ |
      ⟨hino, rfl, -, h⟩
    · exact hq
    · have hkeep : ∀ {q'}, st.CleanAt q' → (st.linked it (ret, entry, dl)).CleanAt q' :=
        hcreate (fun x (hx : entry = some x) => createHlink_clean (hx ▸ hlink)) rfl
      exact ih (fun it' hit => hkeep (hlist it' (List.mem_cons_of_mem _ hit)))
        (fun _ => hkeep hhead) (hkeep hq) h
    · have hpos : it.inoN ≠ 0 := by
        have : 0 < firstFileIno := by decide
        omega
      have hkeep : ∀ {q'}, st.CleanAt q' → (st.create it.name (st.out name)).CleanAt q' :=
        hcreate (hname hpos) rfl
      exact ih (fun it' hit => hkeep (hlist it' (List.mem_cons_of_mem _ hit)))
        (fun _ => hkeep (hname hpos)) (hkeep hq) h

lemma Created.ne_hlink (h : Created img v x) : v.record.recordType ≠ .hlink := by
  rcases h with ⟨htype, -⟩ | ⟨htype, -⟩ <;> simp [htype]

/-- Nothing is in the output at the name of a hard link before the links are made. -/
lemma Steps.out_hlink {it : HlinkItem} (h : Steps img dirs vs .init st) (hpaths : OwnPaths dirs vs)
    (hit : it ∈ st.hlinks) : st.out it.name = none := by
  cases hout : st.out it.name with
  | none => rfl
  | some x =>
    rcases h.created hout with hinit | ⟨u, hu, hup, hcreated⟩
    · cases hinit
    · exact absurd (h.eq_item hpaths hit hu hup rfl).1 hcreated.ne_hlink

/-- **A hard link that is whole is sound.** -/
lemma sound_of_hlink {st₁ : State} (hsteps : Steps img dirs vs .init st₁)
    (hlinks : unpackHlinks img st₁.hlinks 0 [] st₁ = some (0, st)) (hpaths : OwnPaths dirs vs)
    (hv : v ∈ vs) (hp : wantedPath dirs v.record = some p) (htype : v.record.recordType = .hlink)
    (hwhole : WholeAt img st v p) (hreach : ∀ d, img.dataLink v.record = some d → InReach d) :
    Sound img v p := by
  obtain ⟨hdone, x, hx, hout⟩ := hwhole
  have hfresh : st₁.out p = none := by
    cases hbefore : st₁.out p with
    | none => rfl
    | some y =>
      have hcreated := (hsteps.created_of_wanted (fun u hu => hu) hpaths hv hp hbefore).2
      exact absurd htype hcreated.ne_hlink
  -- one of the items is the link, or nothing would be at its path
  obtain ⟨it, hit, hino, hname⟩ : ∃ it ∈ st₁.hlinks, firstFileIno ≤ it.inoN ∧ it.name = p := by
    by_contra hnone
    rw [unpackHlinks_out_eq hlinks (fun it hit hino hname => hnone ⟨it, hit, hino, hname⟩),
      hfresh] at hout
    cases hout
  have hclean : x.Clean := by
    refine unpackHlinks_cleanAt (fun it hit y hy => ?_) (fun h => absurd rfl h) (fun y hy => ?_)
      hlinks x hout
    · rw [hsteps.out_hlink hpaths hit] at hy
      cases hy
    · rw [hfresh] at hy
      cases hy
  obtain ⟨-, rfl, hlength⟩ := hsteps.eq_item hpaths hit hv hp hname
  obtain ⟨-, hinoN, -⟩ := name_item_of_le (v := v) hlength
  simp only [Done, Image.contents, Sound, htype] at hdone hx ⊢
  refine ⟨hinoN ▸ hino, hlength, hlinkSound_of_done hdone hx hclean fun b hbody hdlink => ?_⟩
  exact hreach b (by simp [Image.dataLink, htype, hbody, hdlink])

/-- The wanted records have paths of their own, and their data links one data inode that is not
compressed and nothing that the tool cannot reach. -/
structure Regular (img : Image) (rootPath : Bytes) (faults : Faults) : Prop where
  paths : OwnPaths (img.folders rootPath) (img.visits faults)
  plain : ∃ plain, OnePlain img (img.folders rootPath) plain (img.visits faults)
  reach : ∀ v ∈ img.visits faults, wantedPath (img.folders rootPath) v.record ≠ none →
    ∀ d, img.dataLink v.record = some d → InReach d

/-- What stands behind an element that is not in `pre` stands behind the one after `pre`. -/
lemma mem_of_mem_behind {pre post pre' post' : List Visit} {v' u : Visit}
    (h : pre ++ v :: post = pre' ++ v' :: post') (hv : v' ∉ pre) (hu : u ∈ post') : u ∈ post := by
  rcases List.append_eq_append_iff.1 h with ⟨as, -, hrest⟩ | ⟨as, rfl, hrest⟩
  · cases as with
    | nil =>
      obtain ⟨-, rfl⟩ := List.cons.inj hrest
      exact hu
    | cons a as =>
      obtain ⟨-, rfl⟩ := List.cons.inj hrest
      exact List.mem_append_right _ (List.mem_cons_of_mem _ hu)
  · cases as with
    | nil =>
      obtain ⟨-, rfl⟩ := List.cons.inj hrest
      exact hu
    | cons a as =>
      obtain ⟨rfl, -⟩ := List.cons.inj hrest
      exact absurd (List.mem_append_right _ List.mem_cons_self) hv

/-- **What is whole at the end of a run is sound.** -/
lemma sound_of_whole {st₁ : State} (hsteps : Steps img dirs vs .init st₁)
    (hlinks : unpackHlinks img st₁.hlinks 0 [] st₁ = some (0, st)) (hpaths : OwnPaths dirs vs)
    (hv : v ∈ vs) (hp : wantedPath dirs v.record = some p) (hwhole : WholeAt img st v p)
    (hreach : ∀ d, img.dataLink v.record = some d → InReach d) : Sound img v p := by
  by_cases htype : v.record.recordType = .hlink
  · exact sound_of_hlink hsteps hlinks hpaths hv hp htype hwhole hreach
  · obtain ⟨hdone, x, hx, hout⟩ := hwhole
    -- no hard link has the path
    rw [unpackHlinks_out_eq hlinks fun it hit _ hname =>
      htype (hsteps.eq_item hpaths hit hv hp hname).1] at hout
    have hcreated := (hsteps.created_of_wanted (fun u hu => hu) hpaths hv hp hout).2
    exact hcreated.sound hdone hx hreach

/-- Where the run ends early, what is whole has been created before. -/
lemma created_of_exit {rootPath : Bytes} {faults : Faults} {pre post : List Visit} {u : Visit}
    (hvisits : img.visits faults = pre ++ v :: post)
    (hsteps : Steps img (img.folders rootPath) (pre ++ [v]) .init st)
    (hpaths : OwnPaths (img.folders rootPath) (img.visits faults))
    (hwhole : Whole img rootPath faults st) (hu : u ∈ img.visits faults)
    (hp : wantedPath (img.folders rootPath) u.record = some p) :
    u ∈ pre ++ [v] ∧ ∃ x, Created img u x ∧ Done img u ∧ img.contents u.record = some x := by
  obtain ⟨hdone, x, hx, hout⟩ := hwhole u hu p hp
  have hsub : ∀ w ∈ pre ++ [v], w ∈ img.visits faults := by
    intro w hw
    rw [hvisits, List.append_cons]
    exact List.mem_append_left _ hw
  obtain ⟨hmem, hcreated⟩ := hsteps.created_of_wanted hsub hpaths hu hp hout
  exact ⟨hmem, x, hcreated, hdone, hx⟩

/-- **If the output is whole, nothing has happened that the tool does not heed.** -/
lemma heeded_of_whole {rootPath : Bytes} {faults : Faults}
    (h : unpackFiles img rootPath faults = some (0, st)) (hregular : Regular img rootPath faults)
    (hwhole : Whole img rootPath faults st) : Heeded img rootPath faults := by
  obtain ⟨hpaths, hplain, hreach⟩ := hregular
  have hreach' : ∀ v ∈ img.visits faults, ∀ p, wantedPath (img.folders rootPath) v.record = some p →
      ∀ d, img.dataLink v.record = some d → InReach d :=
    fun v hv p hp => hreach v hv (by simp [hp])
  rcases unpackFiles_eq_zero h with ⟨st₁, hread, hsteps, hlinks⟩ |
    ⟨pre, v, post, st₁, hvisits, hpost, hnext, hread, hsteps, rfl⟩
  · refine ⟨hpaths, fun v hv p hp => ?_, hplain, fun pre v post hvisits hpost hnext => ?_⟩
    · exact sound_of_whole hsteps hlinks hpaths hv hp (hwhole v hv p hp) (hreach' v hv p hp)
    · -- the catalog has been read to its end
      have hmem : v ∈ (img.visits faults).dropLast := by
        rw [hvisits, List.dropLast_append_of_ne_nil (List.cons_ne_nil v post),
          List.dropLast_cons_of_ne_nil hpost]
        exact List.mem_append_right _ List.mem_cons_self
      rw [hread v hmem] at hnext
      cases hnext
  · have hvisited := fun u (hu : u ∈ img.visits faults) p hp =>
      created_of_exit (u := u) (p := p) hvisits hsteps hpaths hwhole hu hp
    refine ⟨hpaths, fun u hu p hp => ?_, hplain, fun pre' v' post' hvisits' _ hnext' => ?_⟩
    · obtain ⟨-, x, hcreated, hdone, hx⟩ := hvisited u hu p hp
      exact hcreated.sound hdone hx (hreach' u hu p hp)
    · -- the catalog could be read on before the run has ended
      have hnotMem : v' ∉ pre := fun hmem => by
        rw [hread v' hmem] at hnext'
        cases hnext'
      refine ⟨fun u hu => ?_, fun u hu hlink => ?_⟩
      all_goals refine Option.eq_none_iff_forall_ne_some.2 fun p hp => ?_
      · have hafter : u ∈ post := mem_of_mem_behind (hvisits.symm.trans hvisits') hnotMem hu
        have hsplit : img.visits faults = (pre ++ [v]) ++ post := by rw [hvisits, List.append_cons]
        have hbefore := (hvisited u (hsplit ▸ List.mem_append_right _ hafter) p hp).1
        rw [hsplit] at hpaths
        exact (List.pairwise_append.1 hpaths).2.2 u hbefore u hafter p hp hp
      · have hmem : u ∈ img.visits faults := by
          rw [hvisits', List.append_cons]
          exact List.mem_append_left _ hu
        obtain ⟨-, x, hcreated, -⟩ := hvisited u hmem p hp
        exact hcreated.ne_hlink hlink

/-- **A run that returns 0 has unpacked everything if nothing happens that the tool does not
heed**, and only then if the wanted records have paths of their own, and one data inode that is
not compressed. -/
theorem whole_iff {rootPath : Bytes} {faults : Faults}
    (h : unpackFiles img rootPath faults = some (0, st)) :
    (Heeded img rootPath faults → Whole img rootPath faults st) ∧
      (Regular img rootPath faults → Whole img rootPath faults st → Heeded img rootPath faults) :=
  ⟨whole_of_heeded h, heeded_of_whole h⟩

/-- The folder `lib`. -/
def libFolder : Record :=
  { parentId := 1, objectId := 9, name := utf8 "lib", recordType := .folder }

/-- The engine library, of two bytes. -/
def library : Record :=
  { parentId := 9, objectId := 10, name := utf8 "libSMT_engine_sh.so", recordType := .file,
    sizeInBytes := 2, totalBlocksCount := 1, extents := [⟨0, 0, 1⟩] }

/-- An image with the engine library in the folder `lib`. -/
def libraryImage : Image where
  catalog := [libFolder, library]
  blockSize := 2
  data := [1, 2]
  decodeFile bytes := (0, bytes)
  authenticated _ := false
  sorted := by simp [libFolder, library]
  blockSize_pos := by decide
  length_data_lt := by decide

/-- Every `write` takes one byte only. -/
def shortWrites : Faults := { calls := fun _ => { write := fun _ => .part 1 } }

/-- The path at which the library is unpacked. -/
def libraryPath : Bytes := outputPath extracted (utf8 "lib/libSMT_engine_sh.so")

/-- **A library that is cut off is no error.** -/
theorem not_whole_shortWrites :
    ∃ st, unpackFiles libraryImage extracted shortWrites = some (0, st) ∧
      ¬ Whole libraryImage extracted shortWrites st := by
  have hrun : (unpackFiles libraryImage extracted shortWrites).map
      (fun x => (x.1, x.2.out libraryPath)) = some (0, some (.file [1])) := by decide
  obtain ⟨⟨ret, st⟩, hrun, hresult⟩ := Option.map_eq_some_iff.1 hrun
  simp only [Prod.mk.injEq] at hresult
  obtain ⟨rfl, hout⟩ := hresult
  refine ⟨st, hrun, fun hwhole => ?_⟩
  have hp : wantedPath (libraryImage.folders extracted) library = some libraryPath := by decide
  obtain ⟨-, x, hx, hxout⟩ := hwhole ⟨library, shortWrites.calls 1⟩
    (List.mem_cons_of_mem _ List.mem_cons_self) _ hp
  have hcontents : libraryImage.contents library = some (.file [1, 2]) := by decide
  have heq : some (Entry.file [1]) = some (Entry.file [1, 2]) := by
    rw [← hout, ← hcontents, hxout, hx]
  exact absurd heq (by decide)

lemma blocksSound_library : BlocksSound libraryImage {} 10 library := by
  intro i hlt
  obtain rfl : i = 0 := by
    have hlt : i * 2 < 2 := hlt
    omega
  refine ⟨Or.inl ⟨⟨0, 0, 1⟩, by decide⟩, fun b hb => ?_, by decide, by simp⟩
  obtain rfl : b = 0 := (Option.some.inj hb).symm
  decide

/-- The library is unpacked where the writes are not short. -/
theorem whole_libraryImage :
    ∃ st, unpackFiles libraryImage extracted {} = some (0, st) ∧
      Whole libraryImage extracted {} st := by
  obtain ⟨st, hrun, -, -⟩ := exists_run (p := libraryPath)
    (show (unpackFiles libraryImage extracted {}).map _ = _ by decide)
  have hvisits : libraryImage.visits {} = [⟨libFolder, {}⟩, ⟨library, {}⟩] := rfl
  have hfolder : wantedPath (libraryImage.folders extracted) libFolder = none := by decide
  have hlibrary : library.recordType = .file := rfl
  refine ⟨st, hrun, (whole_iff hrun).1 ⟨?_, ?_, ⟨0, ?_⟩, ?_⟩⟩
  · rw [hvisits]
    refine List.pairwise_pair.2 fun p hp => ?_
    rw [hfolder] at hp
    cases hp
  · intro v hv p hp
    simp only [hvisits, List.mem_cons, List.not_mem_nil, or_false] at hv
    rcases hv with rfl | rfl
    · rw [hfolder] at hp
      cases hp
    · simp only [Sound, hlibrary]
      exact fun _ => blocksSound_library
  · intro v hv hwanted d hd
    simp only [hvisits, List.mem_cons, List.not_mem_nil, or_false] at hv
    rcases hv with rfl | rfl <;> cases hd
  · intro pre v post hsplit _ hnext
    have hv : v ∈ libraryImage.visits {} := hsplit ▸ List.mem_append_right _ List.mem_cons_self
    simp only [hvisits, List.mem_cons, List.not_mem_nil, or_false] at hv
    rcases hv with rfl | rfl <;> cases hnext

end SamsungTVVoices.Extractor
