/-
Texts that can be told from what follows them.

A writer `enc` is told at a value if no other value is written in the same way, as long as what
follows is admissible: `Told enc dom follow rel a` compares `a` with every value of `dom` and says
that the two are related and the rests equal.  A number is told from what does not go on with a
digit (`append_inj_of_run`), and telling passes to sequences that are closed by a symbol, with or
without separators between their parts (`flatMap_inj`, `joined_inj`).
-/
import Mathlib.Data.List.Basic
import Mathlib.Data.List.Flatten
import Mathlib.Data.List.Forall2

namespace Delimited

variable {α σ : Type*}

/-- Whatever is written like `a`, and goes on alike with admissible rests, is related to `a`. -/
def Told (enc : α → List σ) (dom : α → Prop) (follow : List σ → Prop) (rel : α → α → Prop)
    (a : α) : Prop :=
  ∀ ⦃b⦄, dom b → ∀ ⦃r s⦄, follow r → follow s → enc a ++ r = enc b ++ s → rel a b ∧ r = s

/-- The list does not go on with an element of `p`. -/
def NotNext (p : σ → Prop) (r : List σ) : Prop := ∀ c t, r = c :: t → ¬ p c

@[simp] lemma notNext_nil (p : σ → Prop) : NotNext p [] := by
  intro c t h
  cases h

@[simp] lemma notNext_cons {p : σ → Prop} {c : σ} {t : List σ} : NotNext p (c :: t) ↔ ¬ p c := by
  constructor
  · intro h
    exact h c t rfl
  · intro h d u hd
    obtain ⟨rfl, -⟩ := List.cons.inj hd
    exact h

/-- A run of elements of `p` ends where the list does not go on with one. -/
theorem append_inj_of_run {p : σ → Prop} {as : List σ} : ∀ {bs r s : List σ}, (∀ c ∈ as, p c) →
    (∀ c ∈ bs, p c) → NotNext p r → NotNext p s → as ++ r = bs ++ s → as = bs ∧ r = s := by
  induction as with
  | nil =>
      intro bs r s _ hbs hr _ h
      cases bs with
      | nil => exact ⟨rfl, h⟩
      | cons b bs => exact absurd (hbs b List.mem_cons_self) (hr b (bs ++ s) h)
  | cons a as ih =>
      intro bs r s has hbs hr hs h
      cases bs with
      | nil => exact absurd (has a List.mem_cons_self) (hs a (as ++ r) h.symm)
      | cons b bs =>
          obtain ⟨rfl, htail⟩ := List.cons.inj h
          obtain ⟨rfl, hrest⟩ := ih (fun c hc => has c (List.mem_cons_of_mem _ hc))
            (fun c hc => hbs c (List.mem_cons_of_mem _ hc)) hr hs htail
          exact ⟨rfl, hrest⟩

/-- A symbol in front of every text. -/
lemma Told.cons {enc : α → List σ} {dom : α → Prop} {follow : List σ → Prop} {rel : α → α → Prop}
    {a : α} (c : σ) (h : Told enc dom follow rel a) :
    Told (fun a => c :: enc a) dom follow rel a :=
  fun _ hb _ _ hr hs heq => h hb hr hs (List.cons.inj heq).2

/-- What surrounds the texts for a sequence of them to be told: they may be followed by one another
and by the closing symbol, and none begins with that symbol. -/
structure Closed (enc : α → List σ) (dom : α → Prop) (follow : List σ → Prop) (fin : σ) :
    Prop where
  follow_enc : ∀ a, dom a → ∀ r, follow (enc a ++ r)
  follow_fin : ∀ r, follow (fin :: r)
  enc_ne_fin : ∀ a, dom a → ∀ r s, enc a ++ r ≠ fin :: s

variable {enc : α → List σ} {dom : α → Prop} {follow : List σ → Prop} {rel : α → α → Prop}
  {fin sep : σ}

/-- The texts that are left to be read, up to the closing symbol, may follow another text. -/
lemma Closed.follow_flatMap (h : Closed enc dom follow fin) {as : List α} (has : ∀ a ∈ as, dom a)
    (r : List σ) : follow (as.flatMap enc ++ fin :: r) := by
  cases as with
  | nil => exact h.follow_fin r
  | cons a as =>
      rw [List.flatMap_cons, List.append_assoc]
      exact h.follow_enc a (has a List.mem_cons_self) _

/-- **Sequences.**  Texts written one after the other, and a closing symbol. -/
theorem Closed.flatMap_inj (h : Closed enc dom follow fin) {as : List α} :
    ∀ {bs : List α} {r s : List σ}, (∀ a ∈ as, dom a ∧ Told enc dom follow rel a) →
      (∀ b ∈ bs, dom b) → as.flatMap enc ++ fin :: r = bs.flatMap enc ++ fin :: s →
      List.Forall₂ rel as bs ∧ r = s := by
  induction as with
  | nil =>
      intro bs r s _ hbs heq
      cases bs with
      | nil => exact ⟨.nil, (List.cons.inj heq).2⟩
      | cons b bs =>
          rw [List.flatMap_cons, List.append_assoc] at heq
          exact absurd heq.symm (h.enc_ne_fin b (hbs b List.mem_cons_self) _ _)
  | cons a as ih =>
      intro bs r s has hbs heq
      have hdom : ∀ c ∈ as, dom c := fun c hc => (has c (List.mem_cons_of_mem _ hc)).1
      obtain ⟨ha, htold⟩ := has a List.mem_cons_self
      rw [List.flatMap_cons, List.append_assoc] at heq
      cases bs with
      | nil => exact absurd heq (h.enc_ne_fin a ha _ _)
      | cons b bs =>
          have hbs' : ∀ c ∈ bs, dom c := fun c hc => hbs c (List.mem_cons_of_mem _ hc)
          rw [List.flatMap_cons, List.append_assoc] at heq
          obtain ⟨hab, hrest⟩ := htold (hbs b List.mem_cons_self) (h.follow_flatMap hdom r)
            (h.follow_flatMap hbs' s) heq
          obtain ⟨htail, hrs⟩ := ih (fun c hc => has c (List.mem_cons_of_mem _ hc)) hbs' hrest
          exact ⟨.cons hab htail, hrs⟩

/-- The texts with a separator between any two of them. -/
def joined (sep : σ) (xs : List (List σ)) : List σ := (xs.intersperse [sep]).flatten

@[simp] lemma joined_nil : joined sep [] = [] := rfl

lemma joined_cons (x : List σ) (xs : List (List σ)) :
    joined sep (x :: xs) = x ++ xs.flatMap (sep :: ·) := by
  induction xs generalizing x with
  | nil => simp [joined]
  | cons y xs ih =>
      have hstep : joined sep (x :: y :: xs) = x ++ sep :: joined sep (y :: xs) := by
        simp [joined]
      rw [hstep, ih, List.flatMap_cons, List.cons_append]

/-- **Lists.**  Texts with separators between them, and a closing symbol. -/
theorem joined_inj (hne : sep ≠ fin) (hsep : ∀ r, follow (sep :: r)) (hfin : ∀ r, follow (fin :: r))
    (hopen : ∀ a, dom a → ∀ r s, enc a ++ r ≠ fin :: s) {as bs : List α} {r s : List σ}
    (has : ∀ a ∈ as, dom a ∧ Told enc dom follow rel a) (hbs : ∀ b ∈ bs, dom b)
    (heq : joined sep (as.map enc) ++ fin :: r = joined sep (bs.map enc) ++ fin :: s) :
    List.Forall₂ rel as bs ∧ r = s := by
  have hclosed : Closed (fun a => sep :: enc a) dom follow fin :=
    ⟨fun a _ r => hsep _, hfin, fun a _ r s h => hne (List.cons.inj h).1⟩
  have htail (cs : List α) : (cs.map enc).flatMap (sep :: ·) = cs.flatMap fun a => sep :: enc a :=
    List.flatMap_map ..
  cases as with
  | nil =>
      cases bs with
      | nil => exact ⟨.nil, (List.cons.inj heq).2⟩
      | cons b bs =>
          rw [List.map_cons, joined_cons, List.append_assoc] at heq
          exact absurd heq.symm (hopen b (hbs b List.mem_cons_self) _ _)
  | cons a as =>
      obtain ⟨ha, htold⟩ := has a List.mem_cons_self
      rw [List.map_cons, joined_cons, List.append_assoc] at heq
      cases bs with
      | nil => exact absurd heq (hopen a ha _ _)
      | cons b bs =>
          have hbs' : ∀ c ∈ bs, dom c := fun c hc => hbs c (List.mem_cons_of_mem _ hc)
          have has' : ∀ c ∈ as, dom c ∧ Told (fun a => sep :: enc a) dom follow rel c :=
            fun c hc => ⟨(has c (List.mem_cons_of_mem _ hc)).1,
              (has c (List.mem_cons_of_mem _ hc)).2.cons sep⟩
          rw [List.map_cons, joined_cons, List.append_assoc, htail, htail] at heq
          obtain ⟨hab, hrest⟩ := htold (hbs b List.mem_cons_self)
            (hclosed.follow_flatMap (fun c hc => (has' c hc).1) r)
            (hclosed.follow_flatMap hbs' s) heq
          obtain ⟨hrel, hrs⟩ := hclosed.flatMap_inj has' hbs' hrest
          exact ⟨.cons hab hrel, hrs⟩

/-- What is in a list of related parts has a partner. -/
lemma exists_of_mem_forall₂ {as bs : List α} (h : List.Forall₂ rel as bs) {a : α} (ha : a ∈ as) :
    ∃ b ∈ bs, rel a b := by
  induction h with
  | nil => exact absurd ha List.not_mem_nil
  | @cons c d as bs hcd _ ih =>
      rcases List.mem_cons.1 ha with rfl | ha
      · exact ⟨d, List.mem_cons_self, hcd⟩
      · obtain ⟨b, hb, hab⟩ := ih ha
        exact ⟨b, List.mem_cons_of_mem _ hb, hab⟩

/-- Related parts that are written alike make the same texts. -/
lemma map_eq_map_of_forall₂ {γ : Type*} {f : α → γ} {as bs : List α} (h : List.Forall₂ rel as bs)
    (hf : ∀ a ∈ as, ∀ b ∈ bs, rel a b → f a = f b) : as.map f = bs.map f := by
  induction h with
  | nil => rfl
  | @cons a b as bs hab _ ih =>
      rw [List.map_cons, List.map_cons, hf a List.mem_cons_self b List.mem_cons_self hab,
        ih fun c hc d hd => hf c (List.mem_cons_of_mem _ hc) d (List.mem_cons_of_mem _ hd)]

end Delimited
