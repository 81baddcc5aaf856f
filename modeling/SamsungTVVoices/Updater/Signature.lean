/-
What the signature of a manifest covers (`_signedPayload`, `_verifySignature`).

The signed payload is the text that `json.dumps` writes for the manifest without its signature, so a
signature vouches for no more than that text does.  `told_dumps` is the unambiguity of the text, by
induction on the value: a number is told from what follows it by its digits, a string by its closing
quote, an array or an object by its closing bracket.  With it `signatureCovers_manifest` says that
two manifests have the same payload exactly when they are equal apart from the signature.
-/
import SamsungTVVoices.Updater.Manifest
import SamsungTVVoices.Lib.Delimited
import SamsungTVVoices.Lib.Utf16

open FixedDigits Delimited
open SamsungTVVoices.Driver (CodePoint PyString)

namespace SamsungTVVoices.Updater

/-! ### Strings -/

/-- No high surrogate of the string is directly followed by a low one. -/
def NoSurrogatePair (s : PyString) : Prop := Utf16.NoPair (s.map Fin.val)

instance (s : PyString) : Decidable (NoSurrogatePair s) :=
  inferInstanceAs (Decidable (Utf16.NoPair _))

/-- A code unit, as `json.dumps` writes it. -/
def escapeUnit (u : ℕ) : Bytes :=
  if u = 0x22 then utf8 "\\\""
  else if u = 0x5C then utf8 "\\\\"
  else if u = 0x0A then utf8 "\\n"
  else if u = 0x0D then utf8 "\\r"
  else if u = 0x09 then utf8 "\\t"
  else if u = 0x0C then utf8 "\\f"
  else if u = 0x08 then utf8 "\\b"
  else if 0x20 ≤ u ∧ u ≤ 0x7E then [UInt8.ofNat u]
  else utf8 "\\u" ++ hexField 4 u

/-- A code unit that is no ASCII character is written by its number. -/
lemma escapeUnit_of_le {u : ℕ} (h : 0x80 ≤ u) : escapeUnit u = utf8 "\\u" ++ hexField 4 u := by
  unfold escapeUnit
  repeat rw [if_neg (by omega)]

lemma escapePoint_eq_flatMap (c : CodePoint) :
    escapePoint c = (Utf16.units c.val).flatMap escapeUnit := by
  by_cases hc : c.val < 0x10000
  · rw [Utf16.units_of_lt hc, List.flatMap_singleton, escapePoint, escapeUnit, if_pos hc]
  · have hc' := c.isLt
    rw [Utf16.units_of_le (by omega), List.flatMap_cons, List.flatMap_singleton,
      escapeUnit_of_le (by omega), escapeUnit_of_le (by omega), escapePoint]
    repeat rw [if_neg (by omega)]
    simp only [List.append_assoc]

lemma flatMap_escapePoint (s : PyString) :
    s.flatMap escapePoint = ((s.map Fin.val).flatMap Utf16.units).flatMap escapeUnit := by
  rw [List.flatMap_map, List.flatMap_assoc]
  exact List.flatMap_congr fun c _ => escapePoint_eq_flatMap c

/-- The code unit at the start of the text of a string, and the rest of that text. -/
def readUnit : Bytes → Option (ℕ × Bytes)
  | 0x22 :: _ => none
  | 0x5C :: 0x22 :: rest => some (0x22, rest)
  | 0x5C :: 0x5C :: rest => some (0x5C, rest)
  | 0x5C :: 0x6E :: rest => some (0x0A, rest)
  | 0x5C :: 0x72 :: rest => some (0x0D, rest)
  | 0x5C :: 0x74 :: rest => some (0x09, rest)
  | 0x5C :: 0x66 :: rest => some (0x0C, rest)
  | 0x5C :: 0x62 :: rest => some (0x08, rest)
  | 0x5C :: 0x75 :: rest => (ofHexField (rest.take 4)).map fun u => (u, rest.drop 4)
  | c :: rest => some (c.toNat, rest)
  | [] => none

lemma readUnit_escapeUnit {u : ℕ} (hu : u < 0x10000) (rest : Bytes) :
    readUnit (escapeUnit u ++ rest) = some (u, rest) := by
  unfold escapeUnit
  split_ifs with h1 h2 h3 h4 h5 h6 h7 h8
  · rw [h1]; rfl
  · rw [h2]; rfl
  · rw [h3]; rfl
  · rw [h4]; rfl
  · rw [h5]; rfl
  · rw [h6]; rfl
  · rw [h7]; rfl
  · -- the character itself
    obtain ⟨hlow, hhigh⟩ := h8
    interval_cases u <;> first | rfl | contradiction
  · have hlength := length_hexField_of_lt (w := 4) (by decide) hu
    show (ofHexField ((hexField 4 u ++ rest).take 4)).map
      (fun v => (v, (hexField 4 u ++ rest).drop 4)) = _
    rw [List.take_left' hlength, ofHexField_hexField, Option.map_some, List.drop_left' hlength]

lemma told_escapeUnit {u : ℕ} (hu : u < 0x10000) :
    Told escapeUnit (· < 0x10000) (fun _ => True) Eq u := by
  intro v hv r s _ _ h
  have hread := congrArg readUnit h
  rw [readUnit_escapeUnit hu, readUnit_escapeUnit hv] at hread
  exact Prod.mk.inj (Option.some.inj hread)

/-- The text of a string ends at the first quote that is not escaped. -/
lemma closed_escapeUnit : Closed escapeUnit (· < 0x10000) (fun _ => True) 0x22 where
  follow_enc _ _ _ := trivial
  follow_fin _ := trivial
  enc_ne_fin u hu r s h := by
    have hread := congrArg readUnit h
    rw [readUnit_escapeUnit hu] at hread
    cases hread

/-- **Strings.**  The text of a string is told from whatever follows it. -/
theorem told_dumpsString {s : PyString} (hs : NoSurrogatePair s) :
    Told dumpsString NoSurrogatePair (fun _ => True) Eq s := by
  have hlt (t : PyString) : ∀ c ∈ t.map Fin.val, c < 0x110000 := by
    intro c hc
    obtain ⟨d, -, rfl⟩ := List.mem_map.1 hc
    exact d.isLt
  have hunits (t : PyString) : ∀ u ∈ (t.map Fin.val).flatMap Utf16.units, u < 0x10000 := by
    intro u hu
    obtain ⟨c, hc, hu⟩ := List.mem_flatMap.1 hu
    exact Utf16.lt_of_mem_units (hlt t c hc) hu
  intro t ht r r' _ _ h
  have hquote : utf8 "\"" = [0x22] := rfl
  simp only [dumpsString, flatMap_escapePoint, hquote, List.append_assoc,
    List.cons_append, List.nil_append] at h
  obtain ⟨heq, hr⟩ := closed_escapeUnit.flatMap_inj
    (fun u hu => ⟨hunits s u hu, told_escapeUnit (hunits s u hu)⟩) (hunits t) (List.cons.inj h).2
  rw [List.forall₂_eq_eq_eq] at heq
  have hval := Utf16.flatMap_units_inj _ _ (hlt s) (hlt t) hs ht heq
  exact ⟨List.map_injective_iff.2 Fin.val_injective hval, hr⟩

/-! ### Numbers -/

/-- A byte of a number in decimal. -/
def IsNumeral (c : UInt8) : Prop := c = 0x2D ∨ (0x30 ≤ c ∧ c ≤ 0x39)

instance (c : UInt8) : Decidable (IsNumeral c) := inferInstanceAs (Decidable (_ ∨ _))

/-- The bytes of a natural number are digits. -/
lemma isDigit_of_mem_repr {n : ℕ} {c : UInt8} (hc : c ∈ utf8 n.repr) : 0x30 ≤ c ∧ c ≤ 0x39 := by
  rw [utf8_eq_flatMap, List.mem_flatMap] at hc
  obtain ⟨d, hd, hc⟩ := hc
  have hdigit : d.isDigit = true :=
    Nat.isDigit_of_mem_toDigits (by decide) (by decide) (Nat.toList_repr ▸ hd)
  obtain ⟨hlow, hhigh⟩ := Char.isDigit_iff_toNat.1 hdigit
  have hlow' : 48 ≤ d.val.toNat := hlow
  have hhigh' : d.val.toNat ≤ 57 := hhigh
  have hsize : d.utf8Size = 1 := Char.utf8Size_eq_one_iff.2 (UInt32.le_iff_toNat_le.2 (by
    show d.val.toNat ≤ 127
    omega))
  rw [String.utf8EncodeChar_eq_singleton hsize, List.mem_singleton] at hc
  subst hc
  constructor
  · rw [UInt8.le_iff_toNat_le, UInt32.toNat_toUInt8]
    show 48 ≤ _
    omega
  · rw [UInt8.le_iff_toNat_le, UInt32.toNat_toUInt8]
    show _ ≤ 57
    omega

lemma repr_injective : Function.Injective Nat.repr := by
  intro m n h
  have hdigits : Nat.toDigits 10 m = Nat.toDigits 10 n := by
    rw [← Nat.toList_repr, h, Nat.toList_repr]
  rw [← @Nat.ofDigitChars_ten_toDigits m, hdigits, Nat.ofDigitChars_ten_toDigits]

lemma isNumeral_of_mem_toString {n : ℤ} {c : UInt8} (hc : c ∈ utf8 (toString n)) :
    IsNumeral c := by
  rw [Int.toString_eq_repr, Int.repr_eq_if] at hc
  by_cases hn : 0 ≤ n
  · rw [if_pos hn] at hc
    exact Or.inr (isDigit_of_mem_repr hc)
  · rw [if_neg hn, utf8_append, List.mem_append] at hc
    rcases hc with hc | hc
    · exact Or.inl (List.mem_singleton.1 hc)
    · exact Or.inr (isDigit_of_mem_repr hc)

lemma toString_injective : Function.Injective (toString : ℤ → String) := by
  -- a number with a sign is not one without
  have hsign (m n : ℕ) : "-" ++ m.repr ≠ n.repr := by
    intro h
    have hmem : (0x2D : UInt8) ∈ utf8 n.repr := by
      rw [← h, utf8_append]
      exact List.mem_append_left _ (List.mem_singleton_self _)
    exact absurd (isDigit_of_mem_repr hmem) (by decide)
  intro m n h
  rw [Int.toString_eq_repr, Int.toString_eq_repr, Int.repr_eq_if, Int.repr_eq_if] at h
  by_cases hm : 0 ≤ m
  · by_cases hn : 0 ≤ n
    · rw [if_pos hm, if_pos hn] at h
      have := repr_injective h
      omega
    · rw [if_pos hm, if_neg hn] at h
      exact absurd h.symm (hsign _ _)
  · by_cases hn : 0 ≤ n
    · rw [if_neg hm, if_pos hn] at h
      exact absurd h (hsign _ _)
    · rw [if_neg hm, if_neg hn] at h
      have htail : utf8 (-m).toNat.repr = utf8 (-n).toNat.repr := by
        have hutf8 := congrArg utf8 h
        rw [utf8_append, utf8_append] at hutf8
        exact List.append_cancel_left hutf8
      have := repr_injective (utf8_injective htail)
      omega

/-- **Numbers.**  A number is told from what does not go on with a digit. -/
theorem told_int (n : ℤ) :
    Told (fun n : ℤ => utf8 (toString n)) (fun _ => True) (NotNext IsNumeral) Eq n := by
  intro m _ r s hr hs h
  obtain ⟨heq, hrest⟩ := append_inj_of_run (fun _ => isNumeral_of_mem_toString)
    (fun _ => isNumeral_of_mem_toString) hr hs h
  exact ⟨toString_injective (utf8_injective heq), hrest⟩

/-! ### Values -/

namespace Json

/-- Induction on a value, for the items of an array and the values of an object at once. -/
@[elab_as_elim]
theorem induction {motive : Json → Prop} (null : motive .null) (bool : ∀ b, motive (.bool b))
    (int : ∀ n, motive (.int n)) (float : ∀ repr, motive (.float repr))
    (str : ∀ s, motive (.str s))
    (arr : ∀ items, (∀ item ∈ items, motive item) → motive (.arr items))
    (obj : ∀ fields, (∀ f ∈ fields, motive f.2) → motive (.obj fields)) (j : Json) :
    motive j := by
  induction hk : sizeOf j using Nat.strongRecOn generalizing j with
  | ind k ih =>
      subst hk
      cases j with
      | null => exact null
      | bool b => exact bool b
      | int n => exact int n
      | float repr => exact float repr
      | str s => exact str s
      | arr items =>
          refine arr items fun item hitem => ih _ ?_ item rfl
          have := List.sizeOf_lt_of_mem hitem
          rw [Json.arr.sizeOf_spec]
          omega
      | obj fields =>
          refine obj fields fun f hf => ih _ ?_ f.2 rfl
          have := List.sizeOf_lt_of_mem hf
          have : sizeOf f.2 < sizeOf f := by
            rw [Prod.mk.sizeOf_spec]
            omega
          rw [Json.obj.sizeOf_spec]
          omega

mutual

/-- The keys of every object are different, no string holds a surrogate pair, and there is no
`float`. -/
def Valid : Json → Prop
  | .null | .bool _ | .int _ => True
  | .float _ => False
  | .str s => NoSurrogatePair s
  | .arr items => ValidItems items
  | .obj fields => (fields.map Prod.fst).Nodup ∧ ValidFields fields

def ValidItems : List Json → Prop
  | [] => True
  | item :: items => item.Valid ∧ ValidItems items

def ValidFields : List (PyString × Json) → Prop
  | [] => True
  | (key, value) :: fields => NoSurrogatePair key ∧ value.Valid ∧ ValidFields fields

end

mutual

/-- Equality of values: of objects, whatever the order of their fields is. -/
def Equal : Json → Json → Prop
  | .null, .null => True
  | .bool b, .bool c => b = c
  | .int m, .int n => m = n
  | .float x, .float y => x = y
  | .str s, .str t => s = t
  | .arr xs, .arr ys => EqualItems xs ys
  | .obj fields, .obj others => fields.length = others.length ∧ EqualFields fields others
  | _, _ => False

def EqualItems : List Json → List Json → Prop
  | [], [] => True
  | x :: xs, y :: ys => x.Equal y ∧ EqualItems xs ys
  | _, _ => False

def EqualFields : List (PyString × Json) → List (PyString × Json) → Prop
  | [], _ => True
  | (key, value) :: fields, others =>
      (∃ other, others.lookup key = some other ∧ value.Equal other) ∧ EqualFields fields others

end

@[simp] lemma valid_arr {items : List Json} : (arr items).Valid ↔ ∀ j ∈ items, j.Valid := by
  rw [Valid]
  induction items with
  | nil => simp [ValidItems]
  | cons item items ih => rw [ValidItems, ih, List.forall_mem_cons]

@[simp] lemma valid_obj {fields : List (PyString × Json)} : (obj fields).Valid ↔
    (fields.map Prod.fst).Nodup ∧ ∀ f ∈ fields, NoSurrogatePair f.1 ∧ f.2.Valid := by
  rw [Valid]
  refine and_congr Iff.rfl ?_
  induction fields with
  | nil => simp [ValidFields]
  | cons f fields ih =>
      obtain ⟨key, value⟩ := f
      rw [ValidFields, ih, List.forall_mem_cons, and_assoc]

lemma equal_arr {xs ys : List Json} : (arr xs).Equal (arr ys) ↔ List.Forall₂ Equal xs ys := by
  rw [Equal]
  induction xs generalizing ys with
  | nil => cases ys <;> simp [EqualItems]
  | cons x xs ih =>
      cases ys with
      | nil => simp [EqualItems]
      | cons y ys => rw [EqualItems, ih, List.forall₂_cons]

lemma equal_obj {fields others : List (PyString × Json)} : (obj fields).Equal (obj others) ↔
    fields.length = others.length ∧
      ∀ f ∈ fields, ∃ other, others.lookup f.1 = some other ∧ f.2.Equal other := by
  rw [Equal]
  refine and_congr Iff.rfl ?_
  induction fields with
  | nil => simp [EqualFields]
  | cons f fields ih =>
      obtain ⟨key, value⟩ := f
      rw [EqualFields, ih, List.forall_mem_cons]

end Json

/-! ### The text of a value -/

lemma dumpsItems_eq (items : List Json) : dumpsItems items = items.map dumps := by
  induction items with
  | nil => rfl
  | cons item items ih => rw [dumpsItems, ih, List.map_cons]

lemma dumpsFields_eq (fields : List (PyString × Json)) :
    dumpsFields fields = fields.map fun f => (f.1, dumps f.2) := by
  induction fields with
  | nil => rfl
  | cons f fields ih => rw [dumpsFields, ih, List.map_cons]

/-- A field, as it is written. -/
def dumpsField (f : PyString × Json) : Bytes := dumpsString f.1 ++ 0x3A :: dumps f.2

/-- The fields in the order in which they are written. -/
def sorted (fields : List (PyString × Json)) : List (PyString × Json) :=
  fields.insertionSort fun f g => f.1 ≤ g.1

lemma perm_sorted (fields : List (PyString × Json)) : (sorted fields).Perm fields :=
  List.perm_insertionSort _ fields

lemma dumps_arr (items : List Json) :
    dumps (.arr items) = 0x5B :: (joined 0x2C (items.map dumps) ++ [0x5D]) := by
  rw [dumps, dumpsItems_eq]
  rfl

lemma dumps_obj (fields : List (PyString × Json)) : dumps (.obj fields) =
    0x7B :: (joined 0x2C ((sorted fields).map dumpsField) ++ [0x7D]) := by
  have hsort : sortFields (fields.map fun f => (f.1, dumps f.2)) =
      (sorted fields).map fun f => (f.1, dumps f.2) := by
    rw [sortFields, sorted]
    exact (List.map_insertionSort (fun f g : PyString × Json => f.1 ≤ g.1)
      (fun f g : PyString × Bytes => f.1 ≤ g.1) _ _ fun _ _ _ _ => Iff.rfl).symm
  rw [dumps, dumpsFields_eq, hsort, List.map_map]
  have hfield : ((fun f : PyString × Bytes => dumpsString f.1 ++ utf8 ":" ++ f.2) ∘
      fun f : PyString × Json => (f.1, dumps f.2)) = dumpsField := by
    funext f
    rw [Function.comp_apply, dumpsField, List.append_assoc]
    rfl
  rw [hfield]
  rfl

lemma sorted_keys_eq {fields others : List (PyString × Json)}
    (h : (fields.map Prod.fst).Perm (others.map Prod.fst)) :
    (sorted fields).map Prod.fst = (sorted others).map Prod.fst := by
  have hkeys (fs : List (PyString × Json)) :
      (sorted fs).map Prod.fst = (fs.map Prod.fst).insertionSort (· ≤ ·) :=
    List.map_insertionSort (fun f g : PyString × Json => f.1 ≤ g.1) (· ≤ ·) _ _
      fun _ _ _ _ => Iff.rfl
  rw [hkeys, hkeys]
  refine List.Perm.eq_of_pairwise (fun _ _ _ _ => le_antisymm) (List.pairwise_insertionSort _ _)
    (List.pairwise_insertionSort _ _) ?_
  exact (List.perm_insertionSort _ _).trans (h.trans (List.perm_insertionSort _ _).symm)

/-- The constructor of a value, by a number. -/
def Json.kind : Json → ℕ
  | .null => 0
  | .bool _ => 1
  | .int _ => 2
  | .float _ => 3
  | .str _ => 4
  | .arr _ => 5
  | .obj _ => 6

/-- The constructor, by the first byte of the text. -/
def kindOf (c : UInt8) : ℕ :=
  if IsNumeral c then 2 else if c = 0x6E then 0 else if c = 0x74 ∨ c = 0x66 then 1
  else if c = 0x22 then 4 else if c = 0x5B then 5 else if c = 0x7B then 6 else 7

lemma exists_dumps_eq_cons {j : Json} (hj : j.Valid) :
    ∃ c t, dumps j = c :: t ∧ kindOf c = j.kind := by
  cases j with
  | null => exact ⟨_, _, rfl, rfl⟩
  | bool b => cases b <;> exact ⟨_, _, rfl, rfl⟩
  | int n =>
      have hne : utf8 (toString n) ≠ [] := by
        intro hnil
        have hempty : toString n = "" := utf8_injective hnil
        have hrepr (k : ℕ) : k.repr.toList ≠ [] := by
          rw [Nat.toList_repr]
          exact Nat.toDigits_ne_nil
        rw [Int.toString_eq_repr, Int.repr_eq_if] at hempty
        split at hempty
        · exact hrepr _ (by rw [hempty]; rfl)
        · have hlist := congrArg String.toList hempty
          rw [String.toList_append] at hlist
          exact hrepr _ (List.append_eq_nil_iff.1 hlist).2
      obtain ⟨c, t, hct⟩ := List.exists_cons_of_ne_nil hne
      have hc : IsNumeral c := isNumeral_of_mem_toString (hct ▸ List.mem_cons_self)
      exact ⟨c, t, hct, if_pos hc⟩
  | float repr => exact absurd hj (by simp [Json.Valid])
  | str s => exact ⟨_, _, rfl, rfl⟩
  | arr items => exact ⟨_, _, dumps_arr items, rfl⟩
  | obj fields => exact ⟨_, _, dumps_obj fields, rfl⟩

/-- Texts that begin alike are of values of one kind. -/
lemma kind_eq {j k : Json} (hj : j.Valid) (hk : k.Valid) {r s : Bytes}
    (h : dumps j ++ r = dumps k ++ s) : k.kind = j.kind := by
  obtain ⟨c, t, hjc, hcj⟩ := exists_dumps_eq_cons hj
  obtain ⟨d, u, hkd, hdk⟩ := exists_dumps_eq_cons hk
  rw [hjc, hkd] at h
  rw [← hcj, ← hdk, (List.cons.inj h).1]

/-- The text of a value does not begin with a closing bracket. -/
lemma dumps_ne_bracket {j : Json} (hj : j.Valid) (r s : Bytes) : dumps j ++ r ≠ 0x5D :: s := by
  obtain ⟨c, t, hjc, hcj⟩ := exists_dumps_eq_cons hj
  intro h
  rw [hjc] at h
  rw [(List.cons.inj h).1, show kindOf 0x5D = 7 from rfl] at hcj
  cases j <;> simp [Json.kind] at hcj

/-- A field of a valid object. -/
def ValidField (f : PyString × Json) : Prop := NoSurrogatePair f.1 ∧ f.2.Valid

/-- The keys are the same and the values equal. -/
def EqualField (f g : PyString × Json) : Prop := f.1 = g.1 ∧ f.2.Equal g.2

lemma told_dumpsField {f : PyString × Json} (hf : ValidField f)
    (hvalue : Told dumps Json.Valid (NotNext IsNumeral) Json.Equal f.2) :
    Told dumpsField ValidField (NotNext IsNumeral) EqualField f := by
  intro g hg r s hr hs h
  rw [dumpsField, dumpsField, List.append_assoc, List.append_assoc] at h
  obtain ⟨hkey, hrest⟩ := told_dumpsString hf.1 hg.1 trivial trivial h
  obtain ⟨heq, hrs⟩ := hvalue hg.2 hr hs (List.cons.inj hrest).2
  exact ⟨⟨hkey, heq⟩, hrs⟩

lemma dumpsField_ne_brace (f : PyString × Json) (r s : Bytes) : dumpsField f ++ r ≠ 0x7D :: s := by
  intro h
  have hquote : dumpsField f ++ r = 0x22 :: (dumpsField f ++ r).tail := rfl
  rw [hquote] at h
  exact absurd (List.cons.inj h).1 (by decide)

/-- The value that a key of an object has. -/
lemma lookup_eq_some {fields : List (PyString × Json)} (hkeys : (fields.map Prod.fst).Nodup)
    {f : PyString × Json} (hf : f ∈ fields) : fields.lookup f.1 = some f.2 := by
  induction fields with
  | nil => exact absurd hf List.not_mem_nil
  | cons g fields ih =>
      rw [List.map_cons, List.nodup_cons] at hkeys
      rcases List.mem_cons.1 hf with rfl | hmem
      · exact List.lookup_cons_self
      · have hne : f.1 ≠ g.1 := fun heq => hkeys.1 (heq ▸ List.mem_map_of_mem hmem)
        rw [List.lookup_cons, beq_false_of_ne hne]
        exact ih hkeys.2 hmem

lemma mem_of_lookup {fields : List (PyString × Json)} {key : PyString} {value : Json}
    (h : fields.lookup key = some value) : (key, value) ∈ fields := by
  obtain ⟨pre, post, rfl, -⟩ := List.lookup_eq_some_iff.1 h
  simp

/-- Objects are equal when their fields are, in the order of the keys. -/
lemma equal_obj_of_forall₂ {fields others : List (PyString × Json)}
    (hkeys : (others.map Prod.fst).Nodup)
    (h : List.Forall₂ EqualField (sorted fields) (sorted others)) :
    (Json.obj fields).Equal (.obj others) := by
  rw [Json.equal_obj]
  refine ⟨?_, fun f hf => ?_⟩
  · rw [← (perm_sorted fields).length_eq, h.length_eq, (perm_sorted others).length_eq]
  · obtain ⟨g, hg, hkey, hvalue⟩ := exists_of_mem_forall₂ h ((perm_sorted fields).mem_iff.2 hf)
    refine ⟨g.2, ?_, hvalue⟩
    rw [hkey]
    exact lookup_eq_some hkeys ((perm_sorted others).mem_iff.1 hg)

/-- **The text of a value.**  It is told from whatever does not go on with a digit. -/
theorem told_dumps (j : Json) :
    j.Valid → Told dumps Json.Valid (NotNext IsNumeral) Json.Equal j := by
  have hfollow {c : UInt8} (hc : ¬ IsNumeral c) (r : Bytes) : NotNext IsNumeral (c :: r) :=
    notNext_cons.2 hc
  induction j using Json.induction with
  | null =>
      intro hj k hk r s hr hs h
      obtain rfl : k = .null := by
        have hkind := kind_eq hj hk h
        cases k <;> simp_all [Json.kind]
      exact ⟨trivial, List.append_cancel_left h⟩
  | bool b =>
      intro hj k hk r s hr hs h
      obtain ⟨c, rfl⟩ : ∃ c, k = .bool c := by
        have hkind := kind_eq hj hk h
        cases k <;> simp_all [Json.kind]
      cases b <;> cases c
      · exact ⟨rfl, List.append_cancel_left h⟩
      · exact absurd (List.cons.inj h).1 (by decide)
      · exact absurd (List.cons.inj h).1 (by decide)
      · exact ⟨rfl, List.append_cancel_left h⟩
  | int n =>
      intro hj k hk r s hr hs h
      obtain ⟨m, rfl⟩ : ∃ m, k = .int m := by
        have hkind := kind_eq hj hk h
        cases k <;> simp_all [Json.kind]
      exact told_int n trivial hr hs h
  | float repr => exact fun hj => absurd hj (by simp [Json.Valid])
  | str t =>
      intro hj k hk r s hr hs h
      obtain ⟨u, rfl⟩ : ∃ u, k = .str u := by
        have hkind := kind_eq hj hk h
        cases k <;> simp_all [Json.kind]
      exact told_dumpsString hj hk trivial trivial h
  | arr items ih =>
      intro hj k hk r s hr hs h
      obtain ⟨others, rfl⟩ : ∃ others, k = .arr others := by
        have hkind := kind_eq hj hk h
        cases k <;> simp_all [Json.kind]
      rw [Json.valid_arr] at hj hk
      rw [dumps_arr, dumps_arr, List.cons_append, List.cons_append, List.append_assoc,
        List.append_assoc] at h
      obtain ⟨hequal, hrest⟩ := joined_inj (by decide) (hfollow (by decide)) (hfollow (by decide))
        (fun _ hitem => dumps_ne_bracket hitem)
        (fun item hitem => ⟨hj item hitem, ih item hitem (hj item hitem)⟩) hk (List.cons.inj h).2
      exact ⟨Json.equal_arr.2 hequal, hrest⟩
  | obj fields ih =>
      intro hj k hk r s hr hs h
      obtain ⟨others, rfl⟩ : ∃ others, k = .obj others := by
        have hkind := kind_eq hj hk h
        cases k <;> simp_all [Json.kind]
      rw [Json.valid_obj] at hj hk
      rw [dumps_obj, dumps_obj, List.cons_append, List.cons_append, List.append_assoc,
        List.append_assoc] at h
      have hmem (fs : List (PyString × Json)) {f : PyString × Json} (hf : f ∈ sorted fs) : f ∈ fs :=
        (perm_sorted fs).mem_iff.1 hf
      obtain ⟨hequal, hrest⟩ := joined_inj (by decide) (hfollow (by decide)) (hfollow (by decide))
        (fun f _ => dumpsField_ne_brace f)
        (fun f hf => ⟨hj.2 f (hmem fields hf), told_dumpsField (hj.2 f (hmem fields hf))
          (ih f (hmem fields hf) (hj.2 f (hmem fields hf)).2)⟩)
        (fun f hf => hk.2 f (hmem others hf)) (List.cons.inj h).2
      exact ⟨equal_obj_of_forall₂ hk.1 hequal, hrest⟩

/-! ### Equal values -/

/-- Two values of one key are the same. -/
lemma eq_of_key_eq {fields : List (PyString × Json)} (hkeys : (fields.map Prod.fst).Nodup)
    {f : PyString × Json} (hf : f ∈ fields) {value : Json}
    (h : fields.lookup f.1 = some value) : f.2 = value :=
  Option.some.inj ((lookup_eq_some hkeys hf).symm.trans h)

/-- Equal objects have the same keys. -/
lemma perm_keys_of_equal {fields others : List (PyString × Json)}
    (hfields : (fields.map Prod.fst).Nodup) (h : (Json.obj fields).Equal (.obj others)) :
    (fields.map Prod.fst).Perm (others.map Prod.fst) := by
  obtain ⟨hlength, hlookup⟩ := Json.equal_obj.1 h
  refine (List.subperm_of_subset hfields fun key hkey => ?_).perm_of_length_le (by simp [hlength])
  obtain ⟨f, hf, rfl⟩ := List.mem_map.1 hkey
  obtain ⟨other, hother, -⟩ := hlookup f hf
  exact List.mem_map.2 ⟨(f.1, other), mem_of_lookup hother, rfl⟩

/-- Equal values have the same text. -/
theorem dumps_eq_of_equal (j : Json) : ∀ k, j.Valid → k.Valid → j.Equal k → dumps j = dumps k := by
  induction j using Json.induction with
  | null => intro k _ _ h; cases k <;> first | rfl | exact absurd h (by simp [Json.Equal])
  | bool b =>
      intro k _ _ h
      cases k <;> simp [Json.Equal] at h
      rw [h]
  | int n =>
      intro k _ _ h
      cases k <;> simp [Json.Equal] at h
      rw [h]
  | float repr => exact fun k hj => absurd hj (by simp [Json.Valid])
  | str s =>
      intro k _ _ h
      cases k <;> simp [Json.Equal] at h
      rw [h]
  | arr items ih =>
      intro k hj hk h
      obtain ⟨others, rfl⟩ : ∃ others, k = .arr others := by
        cases k <;> simp_all [Json.Equal]
      rw [Json.valid_arr] at hj hk
      rw [Json.equal_arr] at h
      rw [dumps_arr, dumps_arr, map_eq_map_of_forall₂ h fun item hitem other hother =>
        ih item hitem other (hj item hitem) (hk other hother)]
  | obj fields ih =>
      intro k hj hk h
      obtain ⟨others, rfl⟩ : ∃ others, k = .obj others := by
        cases k <;> simp_all [Json.Equal]
      have hkeys := sorted_keys_eq (perm_keys_of_equal (Json.valid_obj.1 hj).1 h)
      rw [Json.valid_obj] at hj hk
      obtain ⟨-, hlookup⟩ := Json.equal_obj.1 h
      have hpairs : List.Forall₂ (fun f g => f.1 = g.1) (sorted fields) (sorted others) := by
        rwa [← List.forall₂_eq_eq_eq, List.forall₂_map_left_iff,
          List.forall₂_map_right_iff] at hkeys
      rw [dumps_obj, dumps_obj, map_eq_map_of_forall₂ hpairs ?_]
      intro f hf g hg hkey
      have hf' := (perm_sorted fields).mem_iff.1 hf
      have hg' := (perm_sorted others).mem_iff.1 hg
      obtain ⟨other, hother, hequal⟩ := hlookup f hf'
      obtain rfl : g.2 = other := eq_of_key_eq hk.1 hg' (hkey ▸ hother)
      rw [dumpsField, dumpsField, hkey, ih f hf' g.2 (hj.2 f hf').2 (hk.2 g hg').2 hequal]

/-- **The text determines the value.** -/
theorem dumps_eq_iff {j k : Json} (hj : j.Valid) (hk : k.Valid) :
    dumps j = dumps k ↔ j.Equal k := by
  constructor
  · intro h
    exact (told_dumps j hj hk (notNext_nil _) (notNext_nil _) (by rw [h])).1
  · exact dumps_eq_of_equal j k hj hk

lemma Json.equal_refl {j : Json} (hj : j.Valid) : j.Equal j := (dumps_eq_iff hj hj).1 rfl

/-- The order of the fields of an object does not matter. -/
theorem Json.equal_of_perm {fields others : List (PyString × Json)} (hvalid : (obj fields).Valid)
    (h : fields.Perm others) : (obj fields).Equal (obj others) := by
  rw [Json.valid_obj] at hvalid
  refine Json.equal_obj.2 ⟨h.length_eq, fun f hf => ⟨f.2, ?_, Json.equal_refl (hvalid.2 f hf).2⟩⟩
  exact lookup_eq_some ((h.map Prod.fst).nodup_iff.1 hvalid.1) (h.mem_iff.1 hf)

/-! ### Manifests -/

/-- A manifest as `json.loads` returns it, without a `float` and without a surrogate pair. -/
structure Manifest where
  fields : List (PyString × Json)
  valid : (Json.obj fields).Valid

namespace Manifest

def info (m : Manifest) : Json := .obj m.fields

/-- `unsigned` in `_signedPayload` -/
def unsigned (m : Manifest) : Json := .obj (m.fields.filter (·.1 ≠ pyString "signature"))

lemma signedPayload_info (m : Manifest) : signedPayload m.info = some (dumps m.unsigned) := rfl

lemma valid_unsigned (m : Manifest) : m.unsigned.Valid := by
  have hvalid := Json.valid_obj.1 m.valid
  have hsub : (m.fields.filter (·.1 ≠ pyString "signature")).Sublist m.fields := List.filter_sublist
  exact Json.valid_obj.2
    ⟨hvalid.1.sublist (hsub.map Prod.fst), fun f hf => hvalid.2 f (hsub.subset hf)⟩

end Manifest

/-- The digest can be read off the encoding: it follows the first zero byte after the padding. -/
lemma expectedEncoding_injective {lib : Library} {length : ℕ} {p q : Bytes}
    (h : expectedEncoding lib length p = expectedEncoding lib length q) :
    lib.sha256 p = lib.sha256 q := by
  simp only [expectedEncoding, List.append_assoc, List.cons_append, List.nil_append,
    List.cons.injEq, true_and] at h
  have hpadding (k : ℕ) : ∀ c ∈ List.replicate k (0xFF : UInt8), c = 0xFF :=
    fun c hc => List.eq_of_mem_replicate hc
  have hzero (rest : Bytes) : NotNext (· = (0xFF : UInt8)) (0x00 :: rest) :=
    notNext_cons.2 (by decide)
  obtain ⟨-, hrest⟩ := append_inj_of_run (hpadding _) (hpadding _) (hzero _) (hzero _) h
  exact List.append_cancel_left (List.cons.inj hrest).2

/-- What a signature covers of two manifests: their payloads are the same exactly when they are
equal apart from the signature, so one signature is accepted for both only if they are, or if their
payloads have the same SHA-256. -/
structure SignatureCovers (m n : Manifest) : Prop where
  payload : signedPayload m.info = signedPayload n.info ↔ m.unsigned.Equal n.unsigned
  accepted : ∀ (lib : Library) (key : PublicKey),
    signatureOf lib key m.info = signatureOf lib key n.info →
    verifySignature lib key m.info = true → verifySignature lib key n.info = true →
    m.unsigned.Equal n.unsigned ∨ ∃ p q, signedPayload m.info = some p ∧
      signedPayload n.info = some q ∧ p ≠ q ∧ lib.sha256 p = lib.sha256 q

/-- **The signature covers the whole manifest.** -/
theorem signatureCovers_manifest (m n : Manifest) : SignatureCovers m n := by
  have hpayload : signedPayload m.info = signedPayload n.info ↔ m.unsigned.Equal n.unsigned := by
    rw [m.signedPayload_info, n.signedPayload_info, Option.some_inj]
    exact dumps_eq_iff m.valid_unsigned n.valid_unsigned
  refine ⟨hpayload, fun lib key hsignature hm hn => ?_⟩
  by_cases hequal : m.unsigned.Equal n.unsigned
  · exact Or.inl hequal
  · refine Or.inr ⟨_, _, m.signedPayload_info, n.signedPayload_info, ?_, ?_⟩
    · exact fun heq => hequal ((dumps_eq_iff m.valid_unsigned n.valid_unsigned).1 heq)
    · rw [verifySignature, m.signedPayload_info] at hm
      rw [verifySignature, n.signedPayload_info, ← hsignature] at hn
      cases hsig : signatureOf lib key m.info with
      | none =>
          rw [hsig] at hm
          cases hm
      | some signature =>
          rw [hsig] at hm hn
          exact expectedEncoding_injective ((beq_iff_eq.1 hm).symm.trans (beq_iff_eq.1 hn))

/-- A manifest of three fields. -/
def signedManifest : Manifest where
  fields := [(pyString "url", .str (pyString "a")), (pyString "size", .int 12),
    (pyString "signature", .str (pyString "s"))]
  valid := by
    rw [Json.valid_obj]
    refine ⟨by decide +kernel, fun f hf => ?_⟩
    simp only [List.mem_cons, List.not_mem_nil, or_false] at hf
    rcases hf with rfl | rfl | rfl
    · exact ⟨by decide +kernel, (by decide +kernel : NoSurrogatePair (pyString "a"))⟩
    · exact ⟨by decide +kernel, trivial⟩
    · exact ⟨by decide +kernel, (by decide +kernel : NoSurrogatePair (pyString "s"))⟩

/-- The same fields in another order. -/
def reorderedManifest : Manifest where
  fields := signedManifest.fields.reverse
  valid := by
    have hvalid := Json.valid_obj.1 signedManifest.valid
    refine Json.valid_obj.2 ⟨?_, fun f hf => hvalid.2 f (List.mem_reverse.1 hf)⟩
    rw [List.map_reverse, List.nodup_reverse]
    exact hvalid.1

example : signedPayload signedManifest.info =
    some (utf8 "\x7b\"size\":12,\"url\":\"a\"\x7d") := by decide +kernel

/-- One signature is good for both orders. -/
theorem signatureCovers_reorderedManifest :
    signedPayload signedManifest.info = signedPayload reorderedManifest.info := by
  refine (signatureCovers_manifest signedManifest reorderedManifest).payload.2 ?_
  refine Json.equal_of_perm signedManifest.valid_unsigned ?_
  exact (List.reverse_perm signedManifest.fields).symm.filter _

end SamsungTVVoices.Updater
