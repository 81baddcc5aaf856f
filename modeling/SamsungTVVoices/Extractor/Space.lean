/-
The allocation of the blocks of an image (`space_manager.c`).

The space manager keeps a sorted list of the chunks that are free, a bitmap of the blocks that are
not, and their number.  A request for a number of blocks is served from the first chunk that is long
enough, one for a certain place from the chunk around it, of which two may be left.  For an image
that is read-only it keeps nothing but the first address that is free.

`Kept` says which set of blocks is free, and by `Kept.allocateSpace` each request is served as
`Stretches.Grants` has it.
-/
import SamsungTVVoices.Extractor.Bitmap
import SamsungTVVoices.Lib.Stretches
import Mathlib.Data.List.Sort
import Mathlib.Data.Set.Card

open Stretches

namespace SamsungTVVoices.Extractor.Space

/-! ### The space manager -/

/-- `ENOSPC`. -/
def enospc : ℤ := 28

/-- `ADDR_ANY` -/
def addrAny : ℕ := 0

/-- The space manager, with the offset and the length of each item of the list. -/
structure SpaceManager where
  readOnly : Bool
  firstFreeAddress : ℕ
  list : List (ℕ × ℕ)
  buffer : Bytes
  freeBlocksCount : ℕ

/-- `put_space_manager_list_sorted` -/
def putSorted (item : ℕ × ℕ) (list : List (ℕ × ℕ)) : List (ℕ × ℕ) :=
  list.orderedInsert (fun item d => item.1 < d.1) item

/-- `shrink_list_item`, for an item with this length, and the items behind it. -/
def shrunk (item : ℕ × ℕ) (back : List (ℕ × ℕ)) : List (ℕ × ℕ) :=
  if item.2 = 0 then back else item :: back

/-- The loop of `get_free_space`, once the items in `front` have been passed: the address and the
list that is left. -/
def getFreeLoop (offset length : ℕ) (front : List (ℕ × ℕ)) :
    List (ℕ × ℕ) → Option (ℕ × List (ℕ × ℕ))
  | [] => none
  | c :: back =>
    if offset = addrAny then
      if length ≤ c.2 then some (c.1, front ++ shrunk (c.1 + length, c.2 - length) back)
      else getFreeLoop offset length (front ++ [c]) back
    else if c.1 ≤ offset ∧ (offset + length) % 2 ^ 64 ≤ c.1 + c.2 then
      if offset = c.1 then some (offset, front ++ shrunk (c.1 + length, c.2 - length) back)
      else if (offset + length) % 2 ^ 64 = c.1 + c.2 then
        some (offset, front ++ shrunk (c.1, c.2 - length) back)
      else
        some (offset, putSorted (offset + length, c.2 - length - (offset - c.1))
          (putSorted (c.1, offset - c.1) (front ++ back)))
    else getFreeLoop offset length (front ++ [c]) back

/-- A number as an `int64_t`. -/
def int64 (n : ℕ) : ℤ := (BitVec.ofNat 64 n).toInt

section Manager

variable (blockSize : ℕ) (hsize : Bitmap.IsBlockSize blockSize)

/-- `get_free_space`.  What `fsm_set_bits` returns is not looked at. -/
def getFreeSpace (s : SpaceManager) (offset length : ℕ) : SpaceManager × ℤ :=
  if s.readOnly then
    if offset ≠ addrAny ∧ offset ≠ s.firstFreeAddress then (s, -1)
    else
      ({ s with firstFreeAddress := (s.firstFreeAddress + length) % 2 ^ 64 },
        int64 s.firstFreeAddress)
  else
    match getFreeLoop offset length [] s.list with
    | none => (s, -enospc)
    | some (addr, list) =>
      ({ s with
        list := list
        buffer := ((Bitmap.signedBlocks blockSize hsize).signSetBits s.buffer addr length).1
        freeBlocksCount := (s.freeBlocksCount + 2 ^ 32 - length) % 2 ^ 32 }, int64 addr)

/-- `allocate_space`: the first of the blocks, or none where `-ENOSPC` is returned. -/
def allocateSpace (s : SpaceManager) (offset length : ℕ) : SpaceManager × Option ℕ :=
  let (s, addr) := getFreeSpace blockSize hsize s offset length
  (s, if addr < 0 then none else some addr.toNat)

/-- The size of the bitmap, as `init_space_manager` computes it.  It is aligned there by a mask,
which is the same for a size of blocks that is a power of two. -/
def bitmapSize (bitsCount : ℕ) : ℕ :=
  let size := (bitsCount + 7) / 8
  let size := size + 16 * (size / blockSize + 1)
  (size + blockSize - 1) / blockSize * blockSize

/-- `init_space_manager`, for a volume with this many blocks.  The length of an item has 32 bits. -/
def initSpaceManager (readOnly : Bool) (bitsCount : ℕ) : SpaceManager :=
  if readOnly then ⟨true, 0, [], [], 0⟩
  else
    { readOnly := false
      firstFreeAddress := 0
      list := putSorted (0, bitsCount % 2 ^ 32) []
      buffer := Bitmap.signBuffer blockSize Bitmap.fsmBmpMagic
        (List.replicate (bitmapSize blockSize bitsCount) 0)
      freeBlocksCount := bitsCount % 2 ^ 32 }

/-- The requests one after the other, each an offset and a length, and what is allocated. -/
def allocateAll : List (ℕ × ℕ) → SpaceManager → SpaceManager × List (Option ℕ)
  | [], s => (s, [])
  | r :: rs, s =>
    let (s, a) := allocateSpace blockSize hsize s r.1 r.2
    let (s, as) := allocateAll rs s
    (s, a :: as)

end Manager

/-! ### The list of the free chunks -/

section List

variable {l front back : List (ℕ × ℕ)} {c : ℕ × ℕ} {offset length a : ℕ}

lemma putSorted_eq (hfront : ∀ d ∈ front, d.1 ≤ c.1) (hback : ∀ d ∈ back, c.1 < d.1) :
    putSorted c (front ++ back) = front ++ c :: back := by
  rw [putSorted]
  induction front with
  | nil =>
      cases back with
      | nil => rfl
      | cons d back => exact List.orderedInsert_cons_of_le _ _ (hback d List.mem_cons_self)
  | cons d front ih =>
      obtain ⟨hd, hfront⟩ := List.forall_mem_cons.1 hfront
      rw [List.cons_append, List.orderedInsert_cons, if_neg (Nat.not_lt.2 hd), ih hfront,
        List.cons_append]

/-- The chunk is one that the request can be served from. -/
def Suits (offset length : ℕ) (c : ℕ × ℕ) : Prop :=
  if offset = addrAny then length ≤ c.2 else c.1 ≤ offset ∧ offset + length ≤ c.1 + c.2

/-- Where the blocks begin that are taken of a chunk. -/
def address (offset : ℕ) (c : ℕ × ℕ) : ℕ := if offset = addrAny then c.1 else offset

lemma Suits.within (h : Suits offset length c) :
    c.1 ≤ address offset c ∧ address offset c + length ≤ c.1 + c.2 := by
  rw [Suits] at h
  rw [address]
  split at h
  · rename_i hany
    rw [if_pos hany]
    exact ⟨le_refl _, Nat.add_le_add_left h _⟩
  · rename_i hplace
    rwa [if_neg hplace]

lemma shrunk_start (hle : length ≤ c.2) :
    shrunk (c.1 + length, c.2 - length) back = leftover c c.1 length ++ back := by
  rw [shrunk, leftover, Nat.sub_self, List.filter_cons_of_neg (by simp),
    show c.1 + c.2 - (c.1 + length) = c.2 - length by omega]
  by_cases hzero : c.2 - length = 0
  · rw [if_pos hzero, hzero, List.filter_cons_of_neg (by simp), List.filter_nil, List.nil_append]
  · rw [if_neg hzero, List.filter_cons_of_pos (by simpa using Nat.pos_of_ne_zero hzero),
      List.filter_nil, List.singleton_append]

lemma shrunk_end (hlt : c.1 < offset) (heq : offset + length = c.1 + c.2) :
    shrunk (c.1, c.2 - length) back = leftover c offset length ++ back := by
  have hpos : 0 < offset - c.1 := Nat.sub_pos_of_lt hlt
  rw [shrunk, if_neg (by dsimp only; omega), leftover,
    List.filter_cons_of_pos (by simpa using hpos), heq, Nat.sub_self,
    List.filter_cons_of_neg (by simp), List.filter_nil, List.singleton_append]
  congr 2
  omega

lemma put_middle (h : Separate (front ++ c :: back)) (hlt : c.1 < offset)
    (hend : offset + length < c.1 + c.2) :
    putSorted (offset + length, c.2 - length - (offset - c.1))
      (putSorted (c.1, offset - c.1) (front ++ back)) =
      front ++ (leftover c offset length ++ back) := by
  obtain ⟨-, hcb, hcross⟩ := List.pairwise_append.1 h.pairwise
  obtain ⟨hcback, -⟩ := List.pairwise_cons.1 hcb
  have hfront : ∀ d ∈ front, d.1 < c.1 := fun d hd => by
    have := hcross d hd c List.mem_cons_self
    omega
  have hfirst : putSorted (c.1, offset - c.1) (front ++ back) =
      front ++ (c.1, offset - c.1) :: back := by
    refine putSorted_eq (fun d hd => (hfront d hd).le) (fun d hd => ?_)
    have := hcback d hd
    dsimp only
    omega
  have hbefore : ∀ d ∈ front ++ [(c.1, offset - c.1)], d.1 ≤ offset + length := by
    intro d hd
    rcases List.mem_append.1 hd with hd | hd
    · have := hfront d hd
      omega
    · obtain rfl := List.mem_singleton.1 hd
      dsimp only
      omega
  have hbehind : ∀ d ∈ back, offset + length < d.1 := fun d hd => by
    have := hcback d hd
    omega
  have hrest : c.2 - length - (offset - c.1) = c.1 + c.2 - (offset + length) := by omega
  have hpos : 0 < offset - c.1 := Nat.sub_pos_of_lt hlt
  have hpos' : 0 < c.1 + c.2 - (offset + length) := Nat.sub_pos_of_lt hend
  rw [hfirst, List.append_cons, putSorted_eq hbefore hbehind, hrest, leftover,
    List.filter_cons_of_pos (by simpa using hpos), List.filter_cons_of_pos (by simpa using hpos'),
    List.filter_nil]
  simp

/-- How the walk over the list comes out. -/
inductive Found (l : List (ℕ × ℕ)) (offset length : ℕ) : Option (ℕ × List (ℕ × ℕ)) → Prop
  | none (h : ∀ c ∈ l, ¬ Suits offset length c) : Found l offset length none
  | some {front back : List (ℕ × ℕ)} {c : ℕ × ℕ} (hl : l = front ++ c :: back)
      (hfront : ∀ d ∈ front, ¬ Suits offset length d) (hc : Suits offset length c) :
      Found l offset length (some (address offset c,
        front ++ (leftover c (address offset c) length ++ back)))

/-- The first chunk that suits is taken. -/
lemma found_getFreeLoop (h : Separate (front ++ back)) (hlt : offset + length < 2 ^ 63)
    (hfront : ∀ d ∈ front, ¬ Suits offset length d) :
    Found (front ++ back) offset length (getFreeLoop offset length front back) := by
  have hmod : (offset + length) % 2 ^ 64 = offset + length := Nat.mod_eq_of_lt (by omega)
  induction back generalizing front with
  | nil => exact .none (by rwa [List.append_nil])
  | cons c back ih =>
      -- the item is passed if it does not suit
      have hpass : ¬ Suits offset length c → Found (front ++ c :: back) offset length
          (getFreeLoop offset length (front ++ [c]) back) := by
        intro hc
        have hcat : front ++ [c] ++ back = front ++ c :: back := by simp
        rw [← hcat] at h ⊢
        refine ih h fun d hd => ?_
        rcases List.mem_append.1 hd with hd | hd
        · exact hfront d hd
        · rwa [List.mem_singleton.1 hd]
      rw [getFreeLoop, hmod]
      by_cases hany : offset = addrAny
      · have hsuits : Suits offset length c ↔ length ≤ c.2 := by rw [Suits, if_pos hany]
        have haddr : address offset c = c.1 := if_pos hany
        rw [if_pos hany]
        by_cases hle : length ≤ c.2
        · rw [if_pos hle, shrunk_start hle, ← haddr]
          exact .some rfl hfront (hsuits.2 hle)
        · rw [if_neg hle]
          exact hpass (mt hsuits.1 hle)
      · have hsuits : Suits offset length c ↔ c.1 ≤ offset ∧ offset + length ≤ c.1 + c.2 := by
          rw [Suits, if_neg hany]
        have haddr : address offset c = offset := if_neg hany
        rw [if_neg hany]
        by_cases hin : c.1 ≤ offset ∧ offset + length ≤ c.1 + c.2
        · have hfound := Found.some (l := front ++ c :: back) rfl hfront (hsuits.2 hin)
          rw [haddr] at hfound
          rw [if_pos hin]
          by_cases hstart : offset = c.1
          · rw [if_pos hstart, shrunk_start (by omega), ← hstart]
            exact hfound
          · rw [if_neg hstart]
            by_cases hend : offset + length = c.1 + c.2
            · rw [if_pos hend, shrunk_end (by omega) hend]
              exact hfound
            · rw [if_neg hend, put_middle h (by omega) (by omega)]
              exact hfound
        · rw [if_neg hin]
          exact hpass (mt hsuits.1 hin)

end List

/-! ### The free blocks -/

section Kept

variable {blockSize : ℕ} {hsize : Bitmap.IsBlockSize blockSize} {s : SpaceManager} {free : Set ℕ}

/-- The request, as the allocator on sets has it. -/
def request (r : ℕ × ℕ) : Request := ⟨if r.1 = addrAny then none else some r.1, r.2⟩

/-- Which requests for a certain place are served: of an image that is read-only, the blocks are
given one after the other. -/
def Accepts (readOnly : Bool) (free : Set ℕ) (a n : ℕ) : Prop :=
  if readOnly then IsLeast free a else Set.Ico a (a + n) ⊆ free

/-- The blocks that a space manager begins with. -/
def allBlocks (readOnly : Bool) (bitsCount : ℕ) : Set ℕ :=
  if readOnly then Set.univ else Set.Iio bitsCount

/-- These blocks of an image that can be written are free: the list and the bitmap say so, as far as
that reaches, and they are counted. -/
structure Kept (blockSize : ℕ) (hsize : Bitmap.IsBlockSize blockSize) (bitsCount : ℕ)
    (s : SpaceManager) (free : Set ℕ) : Prop where
  readOnly_eq : s.readOnly = false
  bitsCount_lt : bitsCount < 2 ^ 32
  separate : Separate s.list
  numbers_eq : numbers s.list = free
  le_bitsCount : free ⊆ Set.Iio bitsCount
  blocks : (Bitmap.signedBlocks blockSize hsize).Blocks s.buffer
  length_eq : s.buffer.length = bitmapSize blockSize bitsCount
  bits_eq : (Bitmap.signedBlocks blockSize hsize).bits s.buffer =
    (Set.Iio bitsCount \ free) ∩ Set.Iio ((Bitmap.signedBlocks blockSize hsize).capacity s.buffer)
  count_eq : s.freeBlocksCount = free.ncard

lemma int64_of_lt {n : ℕ} (h : n < 2 ^ 63) : int64 n = n := by
  have hmod : (BitVec.ofNat 64 n).toNat = n := Nat.mod_eq_of_lt (by omega)
  rw [int64, BitVec.toInt_eq_toNat_of_lt (by omega), hmod]

lemma ncard_Ico (a n : ℕ) : (Set.Ico a (a + n)).ncard = n := by
  rw [Set.ncard_eq_toFinset_card', Set.toFinset_Ico, Nat.card_Ico, Nat.add_sub_cancel_left]

lemma ncard_Iio (n : ℕ) : (Set.Iio n).ncard = n := by
  rw [Set.ncard_eq_toFinset_card', Set.toFinset_Iio, Nat.card_Iio]

namespace Kept

variable {bitsCount : ℕ} {r : ℕ × ℕ} {a : ℕ} {list : List (ℕ × ℕ)}

/-- A chunk that suits has the blocks, if a place has been asked for, there. -/
lemma suits_of_subset (h : Kept blockSize hsize bitsCount s free) (hpos : 0 < r.2)
    (ha : r.1 = addrAny ∨ r.1 = a) (hsub : Set.Ico a (a + r.2) ⊆ free) :
    ∃ c ∈ s.list, Suits r.1 r.2 c ∧ c.1 ≤ a := by
  rw [← h.numbers_eq] at hsub
  obtain ⟨c, hc, hle, hend⟩ := h.separate.exists_of_Ico_subset hpos hsub
  refine ⟨c, hc, ?_, hle⟩
  rw [Suits]
  split
  · omega
  · rename_i hplace
    rw [ha.resolve_left hplace]
    exact ⟨hle, hend⟩

/-- A request that no chunk suits is refused. -/
lemma grant_none (h : Kept blockSize hsize bitsCount s free) (hpos : 0 < r.2)
    (hnone : ∀ c ∈ s.list, ¬ Suits r.1 r.2 c) :
    Grant (Accepts false) free (request r) none free := by
  have hsub : ∀ a, r.1 = addrAny ∨ r.1 = a → ¬ Set.Ico a (a + r.2) ⊆ free := by
    intro a ha hsub
    obtain ⟨c, hc, hsuits, -⟩ := h.suits_of_subset hpos ha hsub
    exact hnone c hc hsuits
  rw [request]
  split
  · rename_i hany
    exact .nowhere fun a => hsub a (.inl hany)
  · exact .refused (hsub r.1 (.inr rfl))

/-- What is taken of a chunk that suits is free. -/
lemma subset_free (h : Kept blockSize hsize bitsCount s free) {front back : List (ℕ × ℕ)}
    {c : ℕ × ℕ} (hl : s.list = front ++ c :: back) (hc : Suits r.1 r.2 c) :
    Set.Ico (address r.1 c) (address r.1 c + r.2) ⊆ free := by
  rw [← h.numbers_eq]
  refine Ico_subset_of_mem ?_ hc.within.1 hc.within.2
  rw [hl]
  exact List.mem_append_right _ List.mem_cons_self

/-- A request is served from the first chunk that suits. -/
lemma grant_some (h : Kept blockSize hsize bitsCount s free) (hpos : 0 < r.2)
    {front back : List (ℕ × ℕ)} {c : ℕ × ℕ} (hl : s.list = front ++ c :: back)
    (hfront : ∀ d ∈ front, ¬ Suits r.1 r.2 d) (hc : Suits r.1 r.2 c) :
    Grant (Accepts false) free (request r) (some (address r.1 c))
      (free \ Set.Ico (address r.1 c) (address r.1 c + r.2)) := by
  have hsub := h.subset_free hl hc
  rw [request]
  by_cases hany : r.1 = addrAny
  · have haddr : address r.1 c = c.1 := if_pos hany
    rw [if_pos hany]
    refine .first ⟨hsub, fun a ha => ?_⟩
    obtain ⟨d, hd, hsuits, hle⟩ := h.suits_of_subset hpos (.inl hany) ha
    rw [haddr]
    refine le_trans ?_ hle
    -- the chunk with the blocks is not one of those that have been passed
    rw [hl] at hd
    rcases List.mem_append.1 hd with hd | hd
    · exact absurd hsuits (hfront d hd)
    · have hpairwise := h.separate.pairwise
      rw [hl] at hpairwise
      rcases List.mem_cons.1 hd with rfl | hd
      · exact le_refl _
      · have := (List.pairwise_cons.1 (List.pairwise_append.1 hpairwise).2.1).1 d hd
        omega
  · have haddr : address r.1 c = r.1 := if_neg hany
    rw [if_neg hany, haddr]
    rw [haddr] at hsub
    exact .there hsub hsub

/-- What is written down when blocks have been taken. -/
lemma taken (h : Kept blockSize hsize bitsCount s free) {length : ℕ}
    (hsub : Set.Ico a (a + length) ⊆ free) (ha : a + length < 2 ^ 64)
    (hseparate : Separate list) (hnumbers : numbers list = free \ Set.Ico a (a + length)) :
    Kept blockSize hsize bitsCount
      { s with
        list := list
        buffer := ((Bitmap.signedBlocks blockSize hsize).signSetBits s.buffer a length).1
        freeBlocksCount := (s.freeBlocksCount + 2 ^ 32 - length) % 2 ^ 32 }
      (free \ Set.Ico a (a + length)) := by
  obtain ⟨buffer, hrun, hlen, hbits⟩ := Bitmap.Geometry.bits_signSetBits h.blocks ha
  rw [hrun]
  exact {
    readOnly_eq := h.readOnly_eq
    bitsCount_lt := h.bitsCount_lt
    separate := hseparate
    numbers_eq := hnumbers
    le_bitsCount := Set.sdiff_subset.trans h.le_bitsCount
    blocks := h.blocks.congr hlen
    length_eq := hlen.trans h.length_eq
    bits_eq := by
      refine hbits.trans ?_
      rw [Bitmap.Geometry.capacity_congr hlen, h.bits_eq]
      ext n
      have h₁ : n ∈ Set.Ico a (a + length) → n ∈ free := fun hn => hsub hn
      have h₂ : n ∈ free → n ∈ Set.Iio bitsCount := fun hn => h.le_bitsCount hn
      simp only [Set.mem_union, Set.mem_inter_iff, Set.mem_sdiff]
      tauto
    count_eq := by
      have hfinite : free.Finite := (Set.finite_Iio bitsCount).subset h.le_bitsCount
      have hle := Set.ncard_le_ncard h.le_bitsCount (Set.finite_Iio bitsCount)
      have hlength := Set.ncard_le_ncard hsub hfinite
      have hlt := h.bitsCount_lt
      rw [ncard_Iio] at hle
      rw [ncard_Ico] at hlength
      rw [Set.ncard_sdiff hsub (Set.finite_Ico _ _), ncard_Ico, h.count_eq]
      dsimp only
      omega }

/-- **One request.** -/
lemma grant (h : Kept blockSize hsize bitsCount s free) (hpos : 0 < r.2)
    (hlt : r.1 + r.2 < 2 ^ 63) :
    ∃ s' a free', allocateSpace blockSize hsize s r.1 r.2 = (s', a) ∧
      Grant (Accepts false) free (request r) a free' ∧ Kept blockSize hsize bitsCount s' free' := by
  have hfound : Found ([] ++ s.list) r.1 r.2 (getFreeLoop r.1 r.2 [] s.list) :=
    found_getFreeLoop h.separate hlt (fun d hd => (List.not_mem_nil hd).elim)
  have hwrite : ¬ s.readOnly = true := by
    rw [h.readOnly_eq]
    exact Bool.false_ne_true
  rw [allocateSpace, getFreeSpace, if_neg hwrite]
  rw [List.nil_append] at hfound
  generalize getFreeLoop r.1 r.2 [] s.list = found at hfound
  cases hfound with
  | none hnone => exact ⟨s, none, free, rfl, h.grant_none hpos hnone, h⟩
  | @some front back c hl hfront hc =>
      have hgrant := h.grant_some hpos hl hfront hc
      have hsub := h.subset_free hl hc
      have hbits := h.bitsCount_lt
      have hend : address r.1 c + (r.2 - 1) < bitsCount :=
        h.le_bitsCount (hsub ⟨Nat.le_add_right _ _, by omega⟩)
      have hcarve := Separate.carve (hl ▸ h.separate) hpos hc.within.1 hc.within.2
      rw [← hl, h.numbers_eq] at hcarve
      refine ⟨_, some (address r.1 c), _, ?_, hgrant,
        h.taken hsub (by omega) hcarve.1 hcarve.2⟩
      dsimp only
      rw [int64_of_lt (by omega), if_neg (by omega)]
      rfl

end Kept

lemma signs_fsmBmpMagic (hsize : Bitmap.IsBlockSize blockSize) :
    (Bitmap.signedBlocks blockSize hsize).Signs Bitmap.fsmBmpMagic :=
  ⟨rfl, rfl⟩

lemma bitmapSize_lt (hsize : Bitmap.IsBlockSize blockSize) {bitsCount : ℕ}
    (hlt : bitsCount < 2 ^ 32) : bitmapSize blockSize bitsCount < 2 ^ 31 := by
  have hle := hsize.le
  have hblock := hsize.lt
  have hdiv : (bitsCount + 7) / 8 / blockSize ≤ (bitsCount + 7) / 8 / 32 :=
    Nat.div_le_div_left hle (by decide)
  rw [bitmapSize]
  generalize (bitsCount + 7) / 8 / blockSize = q at hdiv
  exact (Nat.div_mul_le_self _ _).trans_lt (by omega)

/-- All blocks are free in the beginning. -/
lemma kept_initSpaceManager (hsize : Bitmap.IsBlockSize blockSize) {bitsCount : ℕ}
    (hpos : 0 < bitsCount) (hlt : bitsCount < 2 ^ 32) :
    Kept blockSize hsize bitsCount (initSpaceManager blockSize false bitsCount)
      (Set.Iio bitsCount) := by
  have hblocks : (Bitmap.signedBlocks blockSize hsize).Blocks
      (List.replicate (bitmapSize blockSize bitsCount) 0) := by
    refine ⟨?_, by rw [List.length_replicate]; exact bitmapSize_lt hsize hlt⟩
    rw [List.length_replicate]
    exact Nat.dvd_mul_left _ _
  have hlen : (Bitmap.signBuffer blockSize Bitmap.fsmBmpMagic
      (List.replicate (bitmapSize blockSize bitsCount) 0)).length = _ :=
    Bitmap.Geometry.length_signBuffer (signs_fsmBmpMagic hsize) hblocks
  have hlist : (initSpaceManager blockSize false bitsCount).list = [(0, bitsCount)] := by
    rw [initSpaceManager, if_neg Bool.false_ne_true, Nat.mod_eq_of_lt hlt]
    rfl
  exact {
    readOnly_eq := rfl
    bitsCount_lt := hlt
    separate := by
      rw [hlist]
      refine ⟨fun c hc => ?_, List.pairwise_singleton _ _⟩
      rwa [List.mem_singleton.1 hc]
    numbers_eq := by
      rw [hlist, numbers_cons, numbers_nil, Set.union_empty]
      ext n
      simp
    le_bitsCount := le_refl _
    blocks := hblocks.congr hlen
    length_eq := hlen.trans List.length_replicate
    bits_eq := by
      refine (Bitmap.Geometry.bits_signBuffer (signs_fsmBmpMagic hsize) hblocks).trans ?_
      rw [Bitmap.bits_replicate _ hblocks, Set.sdiff_self, Set.empty_inter]
    count_eq := by
      rw [ncard_Iio]
      exact Nat.mod_eq_of_lt hlt }

/-- **Many requests.** -/
lemma Kept.grants {bitsCount : ℕ} (h : Kept blockSize hsize bitsCount s free) {rs : List (ℕ × ℕ)}
    (hrs : ∀ r ∈ rs, 0 < r.2 ∧ r.1 + r.2 < 2 ^ 63) :
    ∃ s' as free', allocateAll blockSize hsize rs s = (s', as) ∧
      Grants (Accepts false) free (rs.map request) as free' ∧
      Kept blockSize hsize bitsCount s' free' := by
  induction rs generalizing s free with
  | nil => exact ⟨s, [], free, rfl, .nil, h⟩
  | cons r rs ih =>
      obtain ⟨⟨hpos, hlt⟩, hrs⟩ := List.forall_mem_cons.1 hrs
      obtain ⟨s₁, a, free₁, hrun, hgrant, h₁⟩ := h.grant hpos hlt
      obtain ⟨s', as, free', hruns, hgrants, h'⟩ := ih h₁ hrs
      refine ⟨s', a :: as, free', ?_, .cons hgrant hgrants, h'⟩
      rw [allocateAll, hrun]
      dsimp only
      rw [hruns]

/-! ### Images that are read-only -/

/-- Of a read-only image the blocks from the first free address on are free. -/
structure KeptReadOnly (s : SpaceManager) (free : Set ℕ) : Prop where
  readOnly_eq : s.readOnly = true
  free_eq : free = Set.Ici s.firstFreeAddress

namespace KeptReadOnly

variable {r : ℕ × ℕ}

/-- **One request.** -/
lemma grant (h : KeptReadOnly s free) (hpos : 0 < r.2)
    (hlt : s.firstFreeAddress + r.2 < 2 ^ 63) :
    ∃ s' a free', allocateSpace blockSize hsize s r.1 r.2 = (s', a) ∧
      Grant (Accepts true) free (request r) a free' ∧ KeptReadOnly s' free' ∧
      s'.firstFreeAddress ≤ s.firstFreeAddress + r.2 := by
  have hleast : IsLeast free s.firstFreeAddress := by
    rw [h.free_eq]
    exact isLeast_Ici
  have hsub : Set.Ico s.firstFreeAddress (s.firstFreeAddress + r.2) ⊆ free := by
    rw [h.free_eq]
    exact Set.Ico_subset_Ici_self
  have hrest : free \ Set.Ico s.firstFreeAddress (s.firstFreeAddress + r.2) =
      Set.Ici (s.firstFreeAddress + r.2) := by
    rw [h.free_eq]
    ext n
    simp only [Set.mem_sdiff, Set.mem_Ici, Set.mem_Ico]
    omega
  rw [allocateSpace, getFreeSpace, if_pos h.readOnly_eq]
  by_cases hplace : r.1 ≠ addrAny ∧ r.1 ≠ s.firstFreeAddress
  · rw [if_pos hplace]
    refine ⟨s, none, free, rfl, ?_, h, Nat.le_add_right _ _⟩
    rw [request, if_neg hplace.1]
    refine .refused fun haccepts => hplace.2 ?_
    rw [Accepts, if_pos rfl] at haccepts
    exact haccepts.unique hleast
  · rw [if_neg hplace]
    refine ⟨{ s with firstFreeAddress := (s.firstFreeAddress + r.2) % 2 ^ 64 },
      some s.firstFreeAddress, free \ Set.Ico s.firstFreeAddress (s.firstFreeAddress + r.2),
      ?_, ?_, ⟨h.readOnly_eq, ?_⟩, Nat.mod_le _ _⟩
    · dsimp only
      rw [int64_of_lt (by omega), if_neg (by omega)]
      rfl
    · rw [request]
      by_cases hany : r.1 = addrAny
      · rw [if_pos hany]
        refine .first ⟨hsub, fun a ha => ?_⟩
        exact hleast.2 (ha ⟨le_refl _, Nat.lt_add_of_pos_right hpos⟩)
      · have heq : r.1 = s.firstFreeAddress := by
          by_contra hne
          exact hplace ⟨hany, hne⟩
        rw [if_neg hany, heq]
        refine .there ?_ hsub
        rw [Accepts, if_pos rfl]
        exact hleast
    · rw [hrest, Nat.mod_eq_of_lt (by omega)]

/-- **Many requests.** -/
lemma grants (hsize : Bitmap.IsBlockSize blockSize) (h : KeptReadOnly s free) {rs : List (ℕ × ℕ)}
    (hrs : ∀ r ∈ rs, 0 < r.2)
    (hsum : s.firstFreeAddress + (rs.map Prod.snd).sum < 2 ^ 63) :
    ∃ s' as free', allocateAll blockSize hsize rs s = (s', as) ∧
      Grants (Accepts true) free (rs.map request) as free' := by
  induction rs generalizing s free with
  | nil => exact ⟨s, [], free, rfl, .nil⟩
  | cons r rs ih =>
      obtain ⟨hpos, hrs⟩ := List.forall_mem_cons.1 hrs
      rw [List.map_cons, List.sum_cons] at hsum
      obtain ⟨s₁, a, free₁, hrun, hgrant, h₁, hle⟩ := h.grant hpos (by omega)
      obtain ⟨s', as, free', hruns, hgrants⟩ := ih h₁ hrs (by omega)
      refine ⟨s', a :: as, free', ?_, .cons hgrant hgrants⟩
      rw [allocateAll, hrun]
      dsimp only
      rw [hruns]

end KeptReadOnly

/-! ### All requests -/

/-- Of blocks of 4096 bytes, the bitmap has a bit for each if there are no more than these. -/
lemma le_capacity {buffer : Bytes} {bitsCount : ℕ} (hsize : Bitmap.IsBlockSize 4096)
    (hle : bitsCount ≤ 8388480) (hlen : buffer.length = bitmapSize 4096 bitsCount) :
    bitsCount ≤ (Bitmap.signedBlocks 4096 hsize).capacity buffer := by
  have hB : (Bitmap.signedBlocks 4096 hsize).blockSize = 4096 := rfl
  rw [Bitmap.Geometry.capacity, Bitmap.datablockSize_signedBlocks, hB, hlen, bitmapSize]
  omega

/-- The bitmap then has all blocks that have been given. -/
lemma Kept.bits_of_le {bitsCount : ℕ} {hsize : Bitmap.IsBlockSize 4096}
    (h : Kept 4096 hsize bitsCount s free) (hle : bitsCount ≤ 8388480) :
    (Bitmap.signedBlocks 4096 hsize).bits s.buffer = Set.Iio bitsCount \ free := by
  have hcapacity := le_capacity hsize hle h.length_eq
  rw [h.bits_eq]
  exact Set.inter_eq_left.2 fun n hn => lt_of_lt_of_le hn.1 hcapacity

/-- What a space manager has written down of an image that can be written: the bitmap, as far as it
reaches, has the blocks that are not free, and those that are free are counted. -/
structure Records (blockSize : ℕ) (hsize : Bitmap.IsBlockSize blockSize) (bitsCount : ℕ)
    (s : SpaceManager) (free : Set ℕ) : Prop where
  bits_eq : (Bitmap.signedBlocks blockSize hsize).bits s.buffer =
    (Set.Iio bitsCount \ free) ∩ Set.Iio ((Bitmap.signedBlocks blockSize hsize).capacity s.buffer)
  bits_eq_of_le : blockSize = 4096 → bitsCount ≤ 8388480 →
    (Bitmap.signedBlocks blockSize hsize).bits s.buffer = Set.Iio bitsCount \ free
  count_eq : s.freeBlocksCount = free.ncard

/-- **The blocks of an image.**  Whatever blocks are asked for, in whatever order, of an image that
is written or of one that is read-only, the space manager serves each request as the allocator on
sets does, so no block is given twice.  For an image that is written, the bitmap and the count are
those of what has been given. -/
theorem grants_allocateAll (blockSize : ℕ) (hsize : Bitmap.IsBlockSize blockSize) (readOnly : Bool)
    {bitsCount : ℕ} (hbits : 0 < bitsCount ∧ bitsCount < 2 ^ 32) {rs : List (ℕ × ℕ)}
    (hrs : ∀ r ∈ rs, 0 < r.2 ∧ r.1 + r.2 < 2 ^ 63) (hsum : (rs.map Prod.snd).sum < 2 ^ 63) :
    ∃ s as free, allocateAll blockSize hsize rs (initSpaceManager blockSize readOnly bitsCount) =
        (s, as) ∧
      Grants (Accepts readOnly) (allBlocks readOnly bitsCount) (rs.map request) as free ∧
      (granted (rs.map request) as).Pairwise Disjoint ∧
      (readOnly = false → Records blockSize hsize bitsCount s free) := by
  cases readOnly with
  | false =>
      obtain ⟨s, as, free, hrun, hgrants, h⟩ :=
        (kept_initSpaceManager hsize hbits.1 hbits.2).grants hrs
      refine ⟨s, as, free, hrun, hgrants, hgrants.pairwise, fun _ => ⟨h.bits_eq, ?_, h.count_eq⟩⟩
      rintro rfl hle
      exact h.bits_of_le hle
  | true =>
      have h : KeptReadOnly (initSpaceManager blockSize true bitsCount) Set.univ :=
        ⟨rfl, Set.Ici_bot.symm⟩
      have hfirst : (initSpaceManager blockSize true bitsCount).firstFreeAddress = 0 := rfl
      obtain ⟨s, as, free, hrun, hgrants⟩ :=
        h.grants hsize (fun r hr => (hrs r hr).1) (by rwa [hfirst, Nat.zero_add])
      exact ⟨s, as, free, hrun, hgrants, hgrants.pairwise, nofun⟩

end Kept

/-- Some requests: two blocks anywhere, two at block 5, two there again, and the rest. -/
def someRequests : List (ℕ × ℕ) := [(0, 2), (5, 2), (6, 2), (0, 4), (0, 3)]

lemma isBlockSize_32 : Bitmap.IsBlockSize 32 := ⟨by decide, by decide, by decide⟩

theorem grants_allocateAll_someRequests :
    (allocateAll 32 isBlockSize_32 someRequests (initSpaceManager 32 false 10)).2 =
        [some 0, some 5, none, none, some 2] ∧
      ∃ s as free, allocateAll 32 isBlockSize_32 someRequests (initSpaceManager 32 false 10) =
          (s, as) ∧
        Grants (Accepts false) (allBlocks false 10) (someRequests.map request) as free ∧
        (granted (someRequests.map request) as).Pairwise Disjoint ∧
        (false = false → Records 32 isBlockSize_32 10 s free) :=
  ⟨by decide +kernel,
    grants_allocateAll 32 isBlockSize_32 false (by decide) (by decide) (by decide)⟩

end SamsungTVVoices.Extractor.Space
