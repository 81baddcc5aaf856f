/-
The chunk loop (`samsung_guest.cpp`, `nextChunkEnd`, `synthesisWorker`).

Of valid UTF-8 the loop makes chunks that are valid themselves and together the text
(`chunkedRight_of_isUtf8`).  Of other bytes it may make an empty chunk for ever: it ends exactly if
no 160 continuation bytes stand in a row behind the first byte (`loopEnds_iff`).
-/
import SamsungTVVoices.Lib.StepSystem
import SamsungTVVoices.Lib.Utf8
import SamsungTVVoices.Guest.Stage

open StepSystem Utf8

namespace SamsungTVVoices.Guest

/-! ### The properties -/

/-- `offset` after so many turns of the loop. -/
def chunkOffset (text : Bytes) : ℕ → ℕ
  | 0 => 0
  | n + 1 => nextChunkEnd text (chunkOffset text n)

/-- The chunk of a turn. -/
def chunkAt (text : Bytes) (n : ℕ) : Bytes :=
  (text.drop (chunkOffset text n)).take (chunkOffset text (n + 1) - chunkOffset text n)

/-- The chunks of so many turns. -/
def chunksUpTo (text : Bytes) (n : ℕ) : List Bytes := (List.range n).map (chunkAt text)

/-- In the chunk loop. -/
def Phase.InLoop : Phase → Prop
  | .loop _ | .call _ | .playing _ _ | .callback _ _ _ _ => True
  | _ => False

/-- The worker is in the chunk loop of the job, it is not cancelled, and a call that returns returns
1. -/
def LoopsOn (job : SpeechJob) (s : GuestState) (a : GuestAction) : Prop :=
  (∃ phase, s.worker = .busy job phase ∧ phase.InLoop) ∧ s.cancelling = false ∧
    ∀ result, a = .outside (.return result) → result = 1

/-- The loop can come to its end from here, and these are its chunks, whatever the others do. -/
structure LoopPlays (s : GuestState) (job : SpeechJob) (chunks : List Bytes) : Prop where
  ends : ∃ as t, run guestStep s as = some t ∧ Along guestStep (LoopsOn job) s as ∧
    t.worker = .busy job (.stop true)
  plays : ∀ as t, run guestStep s as = some t → Along guestStep (LoopsOn job) s as →
    ∃ played, chunksFor job.request t.log = chunksFor job.request s.log ++ played ∧
      played <+: chunks ∧ (t.worker = .busy job (.stop true) → played = chunks)

/-- The text is cut into chunks as it should be. -/
structure ChunkedRight (text : Bytes) (chunks : List Bytes) : Prop where
  whole : chunks.flatten = text
  chunk : ∀ chunk ∈ chunks, chunk ≠ [] ∧ chunk.length ≤ 160 ∧ IsUtf8 chunk
  long : ∀ i chunk, chunks[i]? = some chunk → i + 1 < chunks.length → 81 ≤ chunk.length
  /-- A chunk ends after a break if there is one in the second half of its window. -/
  breaks : ∀ i chunk, chunks[i]? = some chunk → i + 1 < chunks.length →
    (∃ b ∈ (text.drop ((chunks.take i).flatten.length + 80)).take 80, isBreak b = true) →
      ∃ b ∈ chunk.getLast?, isBreak b = true

/-- Every turn of the loop makes `offset` larger, so there are no more turns than bytes. -/
structure LoopEnds (s : GuestState) (job : SpeechJob) : Prop where
  increases : ∀ as t offset next, run guestStep s as = some t →
    Along guestStep (LoopsOn job) s as → t.worker = .busy job (.playing offset next) →
      offset < next
  turns : ∀ as t, run guestStep s as = some t → Along guestStep (LoopsOn job) s as →
    ∃ played, chunksFor job.request t.log = chunksFor job.request s.log ++ played ∧
      played.length ≤ job.text.length

/-- Behind the first byte, 160 continuation bytes stand in a row. -/
def HasLongRun (text : Bytes) : Prop :=
  ∃ a, a + targetBytes < text.length ∧
    ∀ i, a < i → i ≤ a + targetBytes → isContinuation (text.getD i 0) = true

/-! ### The end of a chunk -/

variable {text : Bytes} {start e next position minimumBreak n : ℕ}

lemma backToStart_spec (h : start ≤ e) :
    (∀ i, backToStart text start e < i → i ≤ e → isContinuation (text.getD i 0) = true) ∧
      (backToStart text start e = start ∨
        isContinuation (text.getD (backToStart text start e) 0) = false) := by
  induction e with
  | zero =>
      obtain rfl := Nat.le_zero.1 h
      exact ⟨by simp only [backToStart]; omega, Or.inl rfl⟩
  | succ e ih =>
      rw [backToStart]
      split
      · next hback =>
          obtain ⟨hrun, hend⟩ := ih (Nat.lt_succ_iff.1 hback.1)
          refine ⟨fun i hi hle => ?_, hend⟩
          rcases Nat.lt_or_eq_of_le hle with hlt | rfl
          · exact hrun i hi (Nat.lt_succ_iff.1 hlt)
          · exact hback.2
      · next hstay =>
          refine ⟨by omega, ?_⟩
          rw [not_and_or, Bool.not_eq_true] at hstay
          exact hstay.imp (fun hle => by omega) id

lemma lastBreak_spec (h : lastBreak text minimumBreak position = some next) :
    isBreak (text.getD (next - 1) 0) = true := by
  induction position with
  | zero => cases h
  | succ position ih =>
      rw [lastBreak] at h
      split at h
      · split at h
        · next hbreak => cases h; exact hbreak
        · exact ih h
      · cases h

lemma lastBreak_none (h : lastBreak text minimumBreak position = none) {j : ℕ}
    (hj : minimumBreak ≤ j) (hlt : j < position) : isBreak (text.getD j 0) = false := by
  induction position with
  | zero => omega
  | succ position ih =>
      rw [lastBreak, if_pos (by omega)] at h
      split at h
      · cases h
      · next hbreak =>
          rcases Nat.lt_succ_iff_lt_or_eq.1 hlt with hlt | rfl
          · exact ih h hlt
          · exact Bool.eq_false_iff.2 hbreak

/-- The code point at the end of the window, and the break that the chunk ends after. -/
lemma nextChunkEnd_of_long (h : targetBytes < text.length - start) :
    ∃ e, start ≤ e ∧ e ≤ start + targetBytes ∧
      (∀ i, e < i → i ≤ start + targetBytes → isContinuation (text.getD i 0) = true) ∧
      (e = start ∨ isContinuation (text.getD e 0) = false) ∧
      (nextChunkEnd text start = e ∧
          (∀ j, start + targetBytes / 2 ≤ j → j < e → isBreak (text.getD j 0) = false) ∨
        start + targetBytes / 2 < nextChunkEnd text start ∧ nextChunkEnd text start ≤ e ∧
          isBreak (text.getD (nextChunkEnd text start - 1) 0) = true) := by
  have hle : start ≤ start + targetBytes := Nat.le_add_right _ _
  obtain ⟨hstart, hend⟩ := backToStart_bounds text start (start + targetBytes) hle
  have hspec : _ ∧ (backToStart text start (start + targetBytes) = start ∨ _) :=
    backToStart_spec hle
  obtain ⟨hrun, hlead⟩ := hspec
  refine ⟨backToStart text start (start + targetBytes), hstart, hend, hrun, hlead, ?_⟩
  rw [nextChunkEnd, if_neg (not_le.2 h)]
  dsimp only
  cases hbreak : lastBreak text (start + targetBytes / 2)
      (backToStart text start (start + targetBytes)) with
  | none => exact Or.inl ⟨rfl, fun j hj hlt => lastBreak_none hbreak hj hlt⟩
  | some next =>
      obtain ⟨hmin, hle⟩ := lastBreak_bounds hbreak
      exact Or.inr ⟨hmin, hle, lastBreak_spec hbreak⟩

lemma nextChunkEnd_of_short (h : text.length - start ≤ targetBytes) :
    nextChunkEnd text start = text.length := if_pos h

/-! ### Runs of continuation bytes -/

/-- The loop does not get past the byte in front of a long run. -/
lemma nextChunkEnd_le_of_run {a : ℕ} (ha : a + targetBytes < text.length)
    (hrun : ∀ i, a < i → i ≤ a + targetBytes → isContinuation (text.getD i 0) = true)
    (hle : start ≤ a) : nextChunkEnd text start ≤ a := by
  have hlong : targetBytes < text.length - start := by omega
  obtain ⟨e, hstart, hend, -, hlead, hnext⟩ := nextChunkEnd_of_long hlong
  have he : e ≤ a := by
    by_contra hlt
    have hcont := hrun e (by omega) (by omega)
    rcases hlead with rfl | hlead
    · omega
    · rw [hcont] at hlead
      cases hlead
  rcases hnext with ⟨hnext, -⟩ | ⟨-, hnext, -⟩ <;> omega

/-- A turn makes no progress only in front of a long run. -/
lemma exists_run_of_stall (hlt : start < text.length) (h : nextChunkEnd text start ≤ start) :
    HasLongRun text := by
  rcases Nat.lt_or_ge targetBytes (text.length - start) with hlong | hshort
  · obtain ⟨e, hstart, -, hrun, -, hnext⟩ := nextChunkEnd_of_long hlong
    rcases hnext with ⟨hnext, -⟩ | ⟨hnext, -⟩
    · obtain rfl : e = start := by omega
      exact ⟨e, by omega, hrun⟩
    · omega
  · rw [nextChunkEnd_of_short hshort] at h
    omega

/-- **Progress.** Every turn makes `offset` larger, exactly if there is no long run. -/
lemma increases_iff :
    (∀ n, chunkOffset text n < text.length → chunkOffset text n < chunkOffset text (n + 1)) ↔
      ¬HasLongRun text := by
  constructor
  · rintro hincreases ⟨a, ha, hrun⟩
    -- `offset` would grow for ever, and never get past the run
    have hle (n : ℕ) : chunkOffset text n ≤ a := by
      induction n with
      | zero => exact Nat.zero_le a
      | succ n ih => exact nextChunkEnd_le_of_run ha hrun ih
    have hge (n : ℕ) : n ≤ chunkOffset text n := by
      induction n with
      | zero => exact Nat.zero_le _
      | succ n ih =>
          have := hincreases n (by have := hle n; omega)
          omega
    have := hle (a + 1)
    have := hge (a + 1)
    omega
  · intro hrun n hlt
    by_contra hstall
    exact hrun (exists_run_of_stall hlt (not_lt.1 hstall))

/-! ### Valid text -/

lemma isContinuation_iff {c : UInt8} : isContinuation c = true ↔ IsContinuation c := beq_iff_eq

lemma isContinuation_eq_false_iff {c : UInt8} : isContinuation c = false ↔ ¬IsContinuation c := by
  rw [← isContinuation_iff, Bool.not_eq_true]

lemma ascii_of_isBreak {c : UInt8} (h : isBreak c = true) : c < 0x80 := by
  simp only [isBreak, Bool.or_eq_true, beq_iff_eq] at h
  rcases h with (rfl | rfl) | rfl <;> decide

lemma getElem?_eq_getD {i : ℕ} (h : i < text.length) : text[i]? = some (text.getD i 0) := by
  rw [List.getD_eq_getElem?_getD, List.getElem?_eq_getElem h, Option.getD_some]

/-- No continuation byte follows a break. -/
lemma lead_of_isBreak {j : ℕ} (hutf8 : IsUtf8 text) (hj : j + 1 < text.length)
    (hbreak : isBreak (text.getD j 0) = true) : isContinuation (text.getD (j + 1) 0) = false :=
  isContinuation_eq_false_iff.2 <| hutf8.not_continuation_after
    (getElem?_eq_getD (Nat.lt_of_succ_lt hj)) (ascii_of_isBreak hbreak) _ (getElem?_eq_getD hj)

/-- The end of a code point is at most three bytes in front of the end of the window. -/
lemma le_of_run (hutf8 : IsUtf8 text) {last : ℕ} (hle : e ≤ last) (hlast : last < text.length)
    (hrun : ∀ i, e < i → i ≤ last → isContinuation (text.getD i 0) = true) : last ≤ e + 3 := by
  have hthree := hutf8.length_continuations (p := e + 1) (n := last - e) fun i hi =>
    ⟨_, getElem?_eq_getD (by omega), isContinuation_iff.1 (hrun _ (by omega) (by omega))⟩
  omega

/-- The chunk ends in front of a code point, and after a break if there is one in the second half
of its window. -/
lemma nextChunkEnd_of_isUtf8 (hutf8 : IsUtf8 text) (hlong : targetBytes < text.length - start) :
    start + 81 ≤ nextChunkEnd text start ∧ nextChunkEnd text start ≤ start + targetBytes ∧
      isContinuation (text.getD (nextChunkEnd text start) 0) = false ∧
      ∀ j, start + targetBytes / 2 ≤ j → j < start + targetBytes →
        isBreak (text.getD j 0) = true →
          isBreak (text.getD (nextChunkEnd text start - 1) 0) = true := by
  obtain ⟨e, hstart, hend, hrun, hlead, hnext⟩ := nextChunkEnd_of_long hlong
  have hthree := le_of_run hutf8 hend (by omega) hrun
  have hlead' : isContinuation (text.getD e 0) = false := hlead.resolve_left (by
    rw [targetBytes] at hthree
    omega)
  simp only [targetBytes] at *
  rcases hnext with ⟨heq, hnone⟩ | ⟨hmin, hle, hbreak⟩
  · rw [heq]
    refine ⟨by omega, hend, hlead', fun j hj hlt hbreak => ?_⟩
    -- a break in the window is not in its last code point
    rcases Nat.lt_trichotomy j e with hje | rfl | hje
    · rw [hnone j (by omega) hje] at hbreak
      cases hbreak
    · have hnot := lead_of_isBreak hutf8 (by omega) hbreak
      rw [hrun (j + 1) (by omega) (by omega)] at hnot
      cases hnot
    · have hcont := isContinuation_iff.1 (hrun j hje (by omega))
      exact absurd hcont (not_isContinuation_of_ascii (ascii_of_isBreak hbreak))
  · refine ⟨by omega, by omega, ?_, fun _ _ _ _ => hbreak⟩
    have hlead'' := lead_of_isBreak hutf8 (j := nextChunkEnd text start - 1) (by omega) hbreak
    rwa [Nat.sub_add_cancel (by omega)] at hlead''

/-- One turn of the loop on valid text. -/
lemma cut_nextChunkEnd (hutf8 : IsUtf8 text) (hlt : start < text.length)
    (hrest : IsUtf8 (text.drop start)) :
    start < nextChunkEnd text start ∧ nextChunkEnd text start ≤ start + targetBytes ∧
      IsUtf8 ((text.drop start).take (nextChunkEnd text start - start)) ∧
      IsUtf8 (text.drop (nextChunkEnd text start)) := by
  have hle := (nextChunkEnd_bounds hlt.le).2
  have hcut (hgt : start < nextChunkEnd text start)
      (hlead : ∀ b ∈ text[nextChunkEnd text start]?, ¬IsContinuation b) :
      IsUtf8 ((text.drop start).take (nextChunkEnd text start - start)) ∧
        IsUtf8 (text.drop (nextChunkEnd text start)) := by
    have hsplit : start + (nextChunkEnd text start - start) = nextChunkEnd text start := by omega
    have h := hrest.cut (p := nextChunkEnd text start - start)
      (by rw [List.length_drop]; omega) (by rwa [List.getElem?_drop, hsplit])
    rwa [List.drop_drop, hsplit] at h
  rcases Nat.lt_or_ge targetBytes (text.length - start) with hlong | hshort
  · obtain ⟨hmin, hmax, hlead, -⟩ := nextChunkEnd_of_isUtf8 hutf8 hlong
    refine ⟨by omega, hmax, hcut (by omega) ?_⟩
    rw [getElem?_eq_getD (by omega)]
    rintro _ ⟨⟩
    exact isContinuation_eq_false_iff.1 hlead
  · have heq := nextChunkEnd_of_short hshort
    refine ⟨by omega, by omega, hcut (by omega) ?_⟩
    rw [heq, List.getElem?_eq_none le_rfl]
    exact nofun

/-! ### All turns -/

lemma chunksUpTo_succ (text : Bytes) (n : ℕ) :
    chunksUpTo text (n + 1) = chunksUpTo text n ++ [chunkAt text n] := by
  rw [chunksUpTo, List.range_succ, List.map_append]
  rfl

@[simp] lemma length_chunksUpTo (text : Bytes) (n : ℕ) : (chunksUpTo text n).length = n := by
  simp [chunksUpTo]

lemma chunkOffset_le (text : Bytes) (n : ℕ) : chunkOffset text n ≤ text.length := by
  induction n with
  | zero => exact Nat.zero_le _
  | succ n ih => exact (nextChunkEnd_bounds ih).2

/-- The chunks so far are the text so far. -/
lemma flatten_chunksUpTo (text : Bytes) (n : ℕ) :
    (chunksUpTo text n).flatten = text.take (chunkOffset text n) := by
  induction n with
  | zero => simp [chunksUpTo, chunkOffset]
  | succ n ih =>
      have hle := (nextChunkEnd_bounds (chunkOffset_le text n)).1
      rw [chunksUpTo_succ, List.flatten_append, ih, List.flatten_singleton, chunkAt,
        ← List.take_add, chunkOffset, Nat.add_sub_of_le hle]

lemma chunksUpTo_prefix (text : Bytes) {n m : ℕ} (h : n ≤ m) :
    chunksUpTo text n <+: chunksUpTo text m := by
  obtain ⟨k, rfl⟩ := Nat.exists_eq_add_of_le h
  rw [chunksUpTo, chunksUpTo, List.range_add, List.map_append]
  exact List.prefix_append _ _

lemma chunkOffset_mono (text : Bytes) : Monotone (chunkOffset text) :=
  monotone_nat_of_le_succ fun n => (nextChunkEnd_bounds (chunkOffset_le text n)).1

/-- As long as the text lasts, there have been no more turns than bytes. -/
lemma le_chunkOffset
    (h : ∀ n, chunkOffset text n < text.length → chunkOffset text n < chunkOffset text (n + 1))
    {n : ℕ} (hn : ∀ i < n, chunkOffset text i < text.length) : n ≤ chunkOffset text n := by
  induction n with
  | zero => exact Nat.zero_le _
  | succ n ih =>
      have := ih fun i hi => hn i (Nat.lt_succ_of_lt hi)
      have := h n (hn n (Nat.lt_succ_self n))
      omega

lemma exists_last_turn
    (h : ∀ n, chunkOffset text n < text.length → chunkOffset text n < chunkOffset text (n + 1)) :
    ∃ n, text.length ≤ chunkOffset text n ∧ ∀ i < n, chunkOffset text i < text.length := by
  have hends : ∃ n, text.length ≤ chunkOffset text n := by
    by_contra hnone
    push Not at hnone
    have := le_chunkOffset h (n := text.length) fun i _ => hnone i
    have := hnone text.length
    omega
  exact ⟨Nat.find hends, Nat.find_spec hends, fun i hi => not_le.1 (Nat.find_min hends hi)⟩

lemma isUtf8_drop_chunkOffset (hutf8 : IsUtf8 text) (n : ℕ) :
    IsUtf8 (text.drop (chunkOffset text n)) := by
  induction n with
  | zero => exact hutf8
  | succ n ih =>
      rcases Nat.lt_or_ge (chunkOffset text n) text.length with hlt | hge
      · exact (cut_nextChunkEnd hutf8 hlt ih).2.2.2
      · have hle : text.length ≤ chunkOffset text (n + 1) :=
          hge.trans (chunkOffset_mono text (Nat.le_succ n))
        rw [List.drop_eq_nil_of_le hle]
        exact isUtf8_nil

/-- Valid text has no long run. -/
lemma increases_of_isUtf8 (hutf8 : IsUtf8 text) (n : ℕ) (hlt : chunkOffset text n < text.length) :
    chunkOffset text n < chunkOffset text (n + 1) :=
  (cut_nextChunkEnd hutf8 hlt (isUtf8_drop_chunkOffset hutf8 n)).1

lemma length_chunkAt (text : Bytes) (n : ℕ) :
    (chunkAt text n).length = chunkOffset text (n + 1) - chunkOffset text n := by
  have := chunkOffset_le text (n + 1)
  rw [chunkAt, List.length_take, List.length_drop]
  omega

lemma getLast?_chunkAt (h : chunkOffset text n < chunkOffset text (n + 1)) :
    (chunkAt text n).getLast? = some (text.getD (chunkOffset text (n + 1) - 1) 0) := by
  have hle := chunkOffset_le text (n + 1)
  rw [List.getLast?_eq_getElem?, length_chunkAt, chunkAt, List.getElem?_take_of_lt (by omega),
    List.getElem?_drop, ← getElem?_eq_getD (by omega)]
  congr 1
  omega

lemma take_chunksUpTo (text : Bytes) {i n : ℕ} (h : i ≤ n) :
    (chunksUpTo text n).take i = chunksUpTo text i := by
  rw [chunksUpTo, ← List.map_take, List.take_range, Nat.min_eq_left h, chunksUpTo]

/-- The turns up to the end of a valid text cut it as they should. -/
lemma chunkedRight_chunksUpTo (hutf8 : IsUtf8 text) (hend : text.length ≤ chunkOffset text n)
    (hbefore : ∀ i < n, chunkOffset text i < text.length) :
    ChunkedRight text (chunksUpTo text n) := by
  have hturn {i : ℕ} {chunk : Bytes} (h : (chunksUpTo text n)[i]? = some chunk) :
      i < n ∧ chunk = chunkAt text i := by
    obtain ⟨hi, rfl⟩ := List.getElem?_eq_some_iff.1 h
    rw [length_chunksUpTo] at hi
    simp [chunksUpTo, hi]
  have hlong {i : ℕ} (hi : i + 1 < n) :
      targetBytes < text.length - chunkOffset text i := by
    by_contra hshort
    have heq : chunkOffset text (i + 1) = text.length := nextChunkEnd_of_short (not_lt.1 hshort)
    exact (hbefore (i + 1) hi).ne heq
  refine ⟨?_, fun chunk hchunk => ?_, fun i chunk h hi => ?_, fun i chunk h hi hbreak => ?_⟩
  · rw [flatten_chunksUpTo, List.take_of_length_le hend]
  · obtain ⟨i, hi, rfl⟩ := List.mem_map.1 hchunk
    obtain ⟨hgt, hmax, hchunk, -⟩ := cut_nextChunkEnd hutf8 (hbefore i (List.mem_range.1 hi))
      (isUtf8_drop_chunkOffset hutf8 i)
    refine ⟨List.ne_nil_of_length_pos ?_, ?_, hchunk⟩
    · rw [length_chunkAt, chunkOffset]
      omega
    · rw [length_chunkAt, chunkOffset]
      exact Nat.sub_le_iff_le_add'.2 hmax
  · obtain ⟨-, rfl⟩ := hturn h
    rw [length_chunksUpTo] at hi
    have hmin := (nextChunkEnd_of_isUtf8 hutf8 (hlong hi)).1
    rw [length_chunkAt, chunkOffset]
    omega
  · obtain ⟨hlt, rfl⟩ := hturn h
    rw [length_chunksUpTo] at hi
    obtain ⟨hmin, -, -, hends⟩ := nextChunkEnd_of_isUtf8 hutf8 (hlong hi)
    rw [take_chunksUpTo text hlt.le, flatten_chunksUpTo,
      List.length_take_of_le (chunkOffset_le text i)] at hbreak
    obtain ⟨b, hb, hbreak⟩ := hbreak
    obtain ⟨k, hk, rfl⟩ := List.mem_iff_getElem.1 hb
    rw [List.length_take, List.length_drop] at hk
    refine ⟨_, getLast?_chunkAt (increases_of_isUtf8 hutf8 i (hbefore i hlt)), ?_⟩
    refine hends (chunkOffset text i + 80 + k) (Nat.le_add_right _ k) ?_ ?_
    · rw [targetBytes]
      omega
    · rw [List.getElem_take, List.getElem_drop] at hbreak
      rw [List.getD_eq_getElem?_getD, List.getElem?_eq_getElem (by omega), Option.getD_some]
      exact hbreak

/-! ### The worker in the loop -/

/-- Where the worker is after so many chunks. -/
inductive LoopPhase (text : Bytes) : ℕ → Phase → Prop
  | loop (n : ℕ) : LoopPhase text n (.loop (chunkOffset text n))
  | call (n : ℕ) (h : chunkOffset text n < text.length) :
      LoopPhase text n (.call (chunkOffset text n))
  | playing (n : ℕ) :
      LoopPhase text (n + 1) (.playing (chunkOffset text n) (chunkOffset text (n + 1)))
  | callback (n : ℕ) (samples : Option (List UInt16)) (pc : CallbackPc) :
      LoopPhase text (n + 1)
        (.callback (chunkOffset text n) (chunkOffset text (n + 1)) samples pc)
  | stop (n : ℕ) (h : text.length ≤ chunkOffset text n) : LoopPhase text n (.stop true)

/-- The worker has played so many chunks of the job since `s`. -/
structure LoopInv (s : GuestState) (job : SpeechJob) (n : ℕ) (t : GuestState) : Prop where
  phase : ∃ phase, t.worker = .busy job phase ∧ LoopPhase job.text n phase
  plays : chunksFor job.request t.log = chunksFor job.request s.log ++ chunksUpTo job.text n
  before : ∀ i < n, chunkOffset job.text i < job.text.length

variable {s t u : GuestState} {job : SpeechJob} {o : Option Outside}

lemma LoopInv.same (h : LoopInv s job n t) (hworker : u.worker = t.worker)
    (hlog : chunksFor job.request u.log = chunksFor job.request t.log) : LoopInv s job n u :=
  ⟨by rw [hworker]; exact h.phase, hlog.trans h.plays, h.before⟩

lemma chunksFor_concat {e : GuestEvent} (k : ℕ) (log : List GuestEvent) (he : chunk? k e = none) :
    chunksFor k (log ++ [e]) = chunksFor k log := by
  rw [chunksFor_append]
  simp [chunksFor, he]

lemma LoopInv.readerMove (h : LoopInv s job n t) (hmove : ReaderMove t u) : LoopInv s job n u := by
  cases hmove with
  | pass pc shuttingDown worker hpc hworker =>
      refine h.same ?_ rfl
      rcases hworker with hworker | ⟨hasleep, -⟩
      · exact hworker
      · obtain ⟨phase, hphase, -⟩ := h.phase
        rw [hasleep] at hphase
        cases hphase
  | reject f => exact h.same rfl (chunksFor_concat _ _ rfl)
  | post job' hs => exact h.same rfl rfl
  | miss generation hs hne => exact h.same rfl (chunksFor_concat _ _ rfl)
  | hit site generation hs heq => exact h.same rfl rfl
  | store site generation request hs => exact h.same rfl rfl
  | answer generation request hs =>
      exact h.same rfl ((chunksFor_concat _ _ rfl).trans (chunksFor_concat _ _ rfl))
  | leave pc hpc f request => exact h.same rfl (chunksFor_concat _ _ rfl)

/-- A step of the worker goes on with the chunk, or takes the next one, or ends the loop. -/
lemma LoopInv.workerMove (h : LoopInv s job n t) (hmove : WorkerMove t o u)
    (hloop : ∃ phase, t.worker = .busy job phase ∧ phase.InLoop)
    (hcancelling : t.cancelling = false) (hone : ∀ result, o = some (.return result) → result = 1) :
    LoopInv s job n u ∨ LoopInv s job (n + 1) u := by
  obtain ⟨phase, hphase, hat⟩ := h.phase
  obtain ⟨phase', hphase', hin⟩ := hloop
  obtain rfl : phase = phase' := by
    rw [hphase] at hphase'
    exact (WorkerPc.busy.inj hphase').2
  have hgo {synth : Option (List EngineCall)} {language model : Int32} {next : Phase}
      (hnext : LoopPhase job.text n next) : LoopInv s job n { t with
        worker := .busy job next, synth := synth, currentLanguage := language
        currentModel := model } := ⟨⟨next, rfl, hnext⟩, h.plays, h.before⟩
  cases hmove with
  | idle pc synth hidle =>
      have hjob := hidle.job_eq.1
      rw [hphase] at hjob
      cases hjob
  | take job' hs hpending => rw [hphase] at hs; cases hs
  | reset job' hs => rw [hphase] at hs; cases hs; exact hin.elim
  | publish job' hs => rw [hphase] at hs; cases hs; exact hin.elim
  | inner job' phase₁ phase₂ synth language model hs hinner =>
      rw [hphase] at hs
      cases hs
      refine Or.inl (hgo ?_)
      cases hinner with
      | fits => exact hin.elim
      | initError result options ho' hfail => exact hin.elim
      | start => exact hin.elim
      | enter offset hlt hpass => cases hat with | loop n => exact .call n hlt
      | endLoop offset hend =>
          cases hat with
          | loop n => exact .stop n (hend.resolve_right (by rw [hcancelling]; exact nofun))
      | call offset next samples ho' => cases hat with | playing n => exact .callback n samples _
      | loaded offset next samples hactive =>
          cases hat with | callback n samples pc => exact .callback n samples _
      | pass offset next samples generation hpass =>
          cases hat with | callback n samples pc => exact .callback n samples _
      | leave offset next samples pc =>
          cases hat with | callback n samples pc => exact .playing n
      | played offset next => cases hat with | playing n => exact .loop (n + 1)
      | failed offset next result ho' hne => exact absurd (hone result ho') hne
      | cancelled succeeded hstop => exact hin.elim
      | completed succeeded hstop => exact hin.elim
  | play job' offset synth hs =>
      rw [hphase] at hs
      cases hs
      cases hat with
      | call n hlt =>
          refine Or.inr ⟨⟨_, rfl, .playing n⟩, ?_, fun i hi => ?_⟩
          · show chunksFor job.request (t.log ++ [.play job.request (chunkAt job.text n)]) = _
            rw [chunksFor_append, h.plays, chunksUpTo_succ, List.append_assoc]
            simp [chunksFor, chunk?]
          · rcases Nat.lt_succ_iff_lt_or_eq.1 hi with hi | rfl
            · exact h.before i hi
            · exact hlt
  | message job' phase₁ phase₂ f hs hmessage =>
      rw [hphase] at hs
      cases hs
      cases hmessage with
      | audio offset next samples generation =>
          cases hat with
          | callback n samples pc =>
              exact Or.inl ⟨⟨_, rfl, .playing n⟩, (chunksFor_concat _ _ rfl).trans h.plays,
                h.before⟩
      | _ => exact hin.elim
  | clear job' hs => rw [hphase] at hs; cases hs; exact hin.elim

lemma LoopInv.guestStep {a : GuestAction} (h : LoopInv s job n t) (hloops : LoopsOn job t a)
    (hstep : Guest.guestStep t a = some u) : LoopInv s job n u ∨ LoopInv s job (n + 1) u := by
  obtain ⟨hin, hcancelling, hone⟩ := hloops
  cases a with
  | receive incoming =>
      rw [Guest.guestStep] at hstep
      split at hstep
      · refine Or.inl ?_
        cases receiveMove hstep with
        | pass pc hpc => exact h.same rfl rfl
        | speak generation options text => exact h.same rfl (chunksFor_concat _ _ rfl)
        | cancel generation => exact h.same rfl (chunksFor_concat _ _ rfl)
      · cases hstep
  | reader => exact Or.inl (h.readerMove (Guest.readerMove hstep))
  | worker => exact h.workerMove (workerMove_workerStep hstep) hin hcancelling nofun
  | outside o =>
      refine h.workerMove (workerMove_outsideStep hstep) hin hcancelling fun result ho => ?_
      exact hone result (congrArg GuestAction.outside (Option.some.inj ho))

lemma loopInv_start (hworker : s.worker = .busy job (.loop 0)) : LoopInv s job 0 s where
  phase := ⟨_, hworker, .loop 0⟩
  plays := (List.append_nil _).symm
  before := nofun

/-- **The loop.** What the worker plays in the loop are the chunks in their order, whatever the
reader and the engine's callback do meanwhile. -/
lemma exists_loopInv {as : List GuestAction} (hworker : s.worker = .busy job (.loop 0))
    (hrun : run Guest.guestStep s as = some t) (hloops : Along Guest.guestStep (LoopsOn job) s as) :
    ∃ n, LoopInv s job n t := by
  refine run_invariant_along (I := fun t => ∃ n, LoopInv s job n t) ?_ ⟨0, loopInv_start hworker⟩
    hloops hrun
  rintro t a u ⟨n, hinv⟩ hloops hstep
  rcases hinv.guestStep hloops hstep with hinv | hinv
  · exact ⟨n, hinv⟩
  · exact ⟨n + 1, hinv⟩

/-! ### Runs of the loop -/

/-- The worker goes from the head of the loop into the engine's call. -/
lemma exists_call_run {offset : ℕ} (hworker : s.worker = .busy job (.loop offset))
    (hcancelling : s.cancelling = false) (hlt : offset < job.text.length) :
    ∃ t, run Guest.guestStep s [.worker, .worker] = some t ∧
      Along Guest.guestStep (LoopsOn job) s [.worker, .worker] ∧
      t.worker = .busy job (.playing offset (nextChunkEnd job.text offset)) ∧
      t.cancelling = false := by
  have hload : guestStep s .worker = some (s.goOn job (.call offset)) := by
    simp only [guestStep, workerStep, hworker, jobStep, hlt, hcancelling, and_self, if_true]
  obtain ⟨t, hcall, hphase, hnot⟩ : ∃ t, guestStep (s.goOn job (.call offset)) .worker = some t ∧
      t.worker = .busy job (.playing offset (nextChunkEnd job.text offset)) ∧
      t.cancelling = false := ⟨_, rfl, rfl, hcancelling⟩
  refine ⟨t, run_cons_eq_some.2 ⟨_, hload, run_cons_eq_some.2 ⟨t, hcall, rfl⟩⟩, ?_, hphase, hnot⟩
  refine ⟨⟨⟨_, hworker, trivial⟩, hcancelling, by rintro _ ⟨⟩⟩, fun u hu => ?_⟩
  obtain rfl := Option.some.inj (hload.symm.trans hu)
  exact ⟨⟨⟨_, rfl, trivial⟩, hcancelling, by rintro _ ⟨⟩⟩, fun _ _ => trivial⟩

/-- The worker alone makes so many turns, if the text lasts. -/
lemma exists_turns_run (hworker : s.worker = .busy job (.loop 0))
    (hcancelling : s.cancelling = false)
    (hbefore : ∀ i < n, chunkOffset job.text i < job.text.length) :
    ∃ as t, run Guest.guestStep s as = some t ∧ Along Guest.guestStep (LoopsOn job) s as ∧
      t.worker = .busy job (.loop (chunkOffset job.text n)) ∧ t.cancelling = false := by
  induction n with
  | zero => exact ⟨[], s, rfl, trivial, hworker, hcancelling⟩
  | succ n ih =>
      obtain ⟨as, t, hrun, hloops, hphase, hnot⟩ := ih fun i hi => hbefore i (Nat.lt_succ_of_lt hi)
      -- the call and its return
      obtain ⟨u, hu, hloops', hphase', hnot'⟩ :=
        exists_call_run hphase hnot (hbefore n (Nat.lt_succ_self n))
      obtain ⟨v, hv, hphase'', hnot''⟩ : ∃ v, guestStep u (.outside (.return 1)) = some v ∧
          v.worker = .busy job (.loop (chunkOffset job.text (n + 1))) ∧ v.cancelling = false := by
        simp only [guestStep, outsideStep, hphase', if_true]
        exact ⟨_, rfl, rfl, hnot'⟩
      refine ⟨as ++ ([.worker, .worker] ++ [.outside (.return 1)]), v, ?_, ?_, hphase'', hnot''⟩
      · refine run_append.2 ⟨t, hrun, run_append.2 ⟨u, hu, ?_⟩⟩
        exact run_cons_eq_some.2 ⟨v, hv, rfl⟩
      · refine along_append hloops fun t' ht' => ?_
        obtain rfl := Option.some.inj (hrun.symm.trans ht')
        refine along_append hloops' fun u' hu' => ?_
        obtain rfl := Option.some.inj (hu.symm.trans hu')
        refine ⟨⟨⟨_, hphase', trivial⟩, hnot', ?_⟩, fun _ _ => trivial⟩
        rintro _ ⟨⟩
        rfl

/-- **Valid text.** The loop cuts valid UTF-8 into finitely many chunks that are the text, each of
them valid, not empty and of at most 160 bytes, all but the last of at least 81, and each of these
with a break at its end if there is one to be had. -/
theorem chunkedRight_of_isUtf8 (s : GuestState) (job : SpeechJob)
    (hworker : s.worker = .busy job (.loop 0)) (hcancelling : s.cancelling = false)
    (hutf8 : IsUtf8 job.text) :
    ∃ chunks, LoopPlays s job chunks ∧ ChunkedRight job.text chunks := by
  obtain ⟨n, hend, hbefore⟩ := exists_last_turn (increases_of_isUtf8 hutf8)
  refine ⟨chunksUpTo job.text n, ⟨?_, fun as t hrun hloops => ?_⟩,
    chunkedRight_chunksUpTo hutf8 hend hbefore⟩
  · obtain ⟨as, t, hrun, hloops, hphase, hnot⟩ := exists_turns_run hworker hcancelling hbefore
    have hstop : guestStep t .worker = some (t.goOn job (.stop true)) := by
      simp only [guestStep, workerStep, hphase, jobStep, not_lt.2 hend, false_and, if_false]
    refine ⟨as ++ [.worker], _, run_append.2 ⟨t, hrun, run_cons_eq_some.2 ⟨_, hstop, rfl⟩⟩, ?_, rfl⟩
    refine along_append hloops fun t' ht' => ?_
    obtain rfl := Option.some.inj (hrun.symm.trans ht')
    exact ⟨⟨⟨_, hphase, trivial⟩, hnot, by rintro _ ⟨⟩⟩, fun _ _ => trivial⟩
  · obtain ⟨m, hinv⟩ := exists_loopInv hworker hrun hloops
    have hle : m ≤ n := by
      by_contra hlt
      exact (hinv.before n (not_le.1 hlt)).not_ge hend
    refine ⟨_, hinv.plays, chunksUpTo_prefix job.text hle, fun hstop => ?_⟩
    obtain ⟨phase, hphase, hat⟩ := hinv.phase
    rw [hstop] at hphase
    cases hphase
    cases hat with
    | stop _ hlast =>
        obtain rfl : m = n := by
          refine le_antisymm hle (not_lt.1 fun hlt => ?_)
          exact (hbefore m hlt).not_ge hlast
        rfl

/-- The job of a first request with this text. -/
def loopJob (text : Bytes) : SpeechJob := ⟨0, 1, ⟨1, 2, 0, 0, 0⟩, text⟩

/-- A first request with this text, up to its chunk loop. -/
def spokenToLoop (text : Bytes) : List GuestAction :=
  [.reader, .receive (.ofFrame ⟨SamsungMessage.speak.code, 1,
    (⟨1, 2, 0, 0, 0⟩ : SamsungSpeakOptions).toBytes ++ text⟩), .reader, .reader, .worker, .worker,
    .worker, .worker, .worker, .outside (.initResults fun _ => 1), .worker]

lemma exists_spokenToLoop (text : Bytes)
    (h : (run guestStep initialState (spokenToLoop text)).map (fun s => (s.worker, s.cancelling)) =
      some (.busy (loopJob text) (.loop 0), false)) :
    ∃ s, run guestStep initialState (spokenToLoop text) = some s ∧
      s.worker = .busy (loopJob text) (.loop 0) ∧ s.cancelling = false := by
  obtain ⟨s, hs, heq⟩ := Option.map_eq_some_iff.1 h
  exact ⟨s, hs, congrArg Prod.fst heq, congrArg Prod.snd heq⟩

/-- A code point of two bytes across the end of the window. -/
def acrossWindow : Bytes := List.replicate 159 97 ++ [0xC3, 0xA9, 98]

theorem chunkedRight_acrossWindow : ∃ s job chunks,
    run guestStep initialState (spokenToLoop acrossWindow) = some s ∧
      s.worker = .busy job (.loop 0) ∧ job.text = acrossWindow ∧ LoopPlays s job chunks ∧
        ChunkedRight acrossWindow chunks := by
  obtain ⟨s, hs, hworker, hcancelling⟩ :=
    exists_spokenToLoop acrossWindow (by decide +kernel)
  have hutf8 : IsUtf8 acrossWindow := ⟨List.replicate 159 'a' ++ ['é', 'b'], by decide +kernel⟩
  obtain ⟨chunks, hplays, hright⟩ :=
    chunkedRight_of_isUtf8 s (loopJob acrossWindow) hworker hcancelling hutf8
  exact ⟨s, loopJob acrossWindow, chunks, hs, hworker, rfl, hplays, hright⟩

/-- The loop that makes progress has no long run in front of it. -/
lemma LoopEnds.not_hasLongRun (hends : LoopEnds s job) (hworker : s.worker = .busy job (.loop 0))
    (hcancelling : s.cancelling = false) : ¬HasLongRun job.text := by
  rw [← increases_iff]
  intro n hlt
  obtain ⟨as, t, hrun, hloops, hphase, hnot⟩ := exists_turns_run hworker hcancelling
    fun i hi => (chunkOffset_mono job.text (Nat.le_of_lt hi)).trans_lt hlt
  obtain ⟨u, hu, hloops', hplaying, -⟩ := exists_call_run hphase hnot hlt
  refine hends.increases (as ++ [.worker, .worker]) u _ _ (run_append.2 ⟨t, hrun, hu⟩) ?_ hplaying
  refine along_append hloops fun t' ht' => ?_
  obtain rfl := Option.some.inj (hrun.symm.trans ht')
  exact hloops'

/-- **The end of the loop.** Every turn of the loop makes `offset` larger, so that there are no
more turns than bytes, exactly if no 160 continuation bytes stand in a row behind the first byte. -/
theorem loopEnds_iff (s : GuestState) (job : SpeechJob) (hworker : s.worker = .busy job (.loop 0))
    (hcancelling : s.cancelling = false) : LoopEnds s job ↔ ¬HasLongRun job.text := by
  refine ⟨fun hends => hends.not_hasLongRun hworker hcancelling, fun hnone => ?_⟩
  have hincreases := increases_iff.2 hnone
  refine ⟨fun as t offset next hrun hloops hplaying => ?_, fun as t hrun hloops => ?_⟩
  · obtain ⟨n, hinv⟩ := exists_loopInv hworker hrun hloops
    obtain ⟨phase, hphase, hat⟩ := hinv.phase
    rw [hplaying] at hphase
    cases hphase
    cases hat with
    | playing m => exact hincreases m (hinv.before m (Nat.lt_succ_self m))
  · obtain ⟨n, hinv⟩ := exists_loopInv hworker hrun hloops
    refine ⟨_, hinv.plays, ?_⟩
    rw [length_chunksUpTo]
    exact (le_chunkOffset hincreases hinv.before).trans (chunkOffset_le job.text n)

theorem loopEnds_letter : ∃ s job, run guestStep initialState (spokenToLoop [97]) = some s ∧
    s.worker = .busy job (.loop 0) ∧ job.text = [97] ∧ LoopEnds s job := by
  obtain ⟨s, hs, hworker, hcancelling⟩ := exists_spokenToLoop [97] (by decide +kernel)
  refine ⟨s, loopJob [97], hs, hworker, rfl, ?_⟩
  refine (loopEnds_iff s (loopJob [97]) hworker hcancelling).2 ?_
  rintro ⟨a, ha, -⟩
  exact absurd ha (Nat.not_lt_of_le (Nat.le_add_left 1 (a + 159)))

lemma hasLongRun_cons_replicate (b : UInt8) (n : ℕ) (h : targetBytes ≤ n) :
    HasLongRun (b :: List.replicate n 0x80) := by
  refine ⟨0, by rw [List.length_cons, List.length_replicate]; omega, fun i hi hle => ?_⟩
  obtain ⟨j, rfl⟩ := Nat.exists_eq_add_of_le' hi
  have hj : j < n := by omega
  rw [List.getD_cons_succ, List.getD_eq_getElem?_getD, List.getElem?_replicate, if_pos hj]
  rfl

/-- A letter and 160 continuation bytes. -/
def longRun : Bytes := 97 :: List.replicate 160 0x80

/-- The chunk in front of the run is empty. -/
theorem not_loopEnds_longRun :
    ¬ ∀ (as : List GuestAction) (s : GuestState) (job : SpeechJob),
      run guestStep initialState as = some s → s.worker = .busy job (.loop 0) →
        s.cancelling = false → LoopEnds s job := by
  intro h
  obtain ⟨s, hs, hworker, hcancelling⟩ := exists_spokenToLoop longRun (by decide +kernel)
  refine (h _ s _ hs hworker hcancelling).not_hasLongRun hworker hcancelling ?_
  exact hasLongRun_cons_replicate 97 160 le_rfl

end SamsungTVVoices.Guest
