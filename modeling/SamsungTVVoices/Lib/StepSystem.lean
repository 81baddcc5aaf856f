/-
Runs of a partial step function.

A system is a function `step : σ → α → Option σ`: the state `s` can take the action `a`
exactly when `step s a` is defined.  The actions carry every choice of a scheduler and of
an environment, so a list of actions is one interleaving and `run` replays it.  Parties
that run concurrently are one such system whose actions name the party that moves.

The rules are the ones every invariant proof needs: a run splits where its list of actions
splits (`run_append`), what one step preserves a run preserves (`run_invariant`), and the
same under a condition on the steps that are taken (`Along`, `run_invariant_along`) and for a
property of the run so far (`run_history_from`).
-/
import Mathlib.Data.List.Basic

namespace StepSystem

variable {σ α : Type*} (step : σ → α → Option σ)

/-- The state reached by taking the actions of the list one after the other, if each of
them can be taken. -/
def run : σ → List α → Option σ
  | s, [] => some s
  | s, a :: as => (step s a).bind fun t => run t as

/-- `t` is reached from `s` by some list of actions. -/
def Reaches (s t : σ) : Prop := ∃ as, run step s as = some t

/-- Every step that the list of actions takes from `s` satisfies the condition `G`, which
sees the state before the step and the action. -/
def Along (G : σ → α → Prop) : σ → List α → Prop
  | _, [] => True
  | s, a :: as => G s a ∧ ∀ t, step s a = some t → Along G t as

variable {step}

@[simp] lemma run_nil (s : σ) : run step s [] = some s := rfl

@[simp] lemma run_cons (s : σ) (a : α) (as : List α) :
    run step s (a :: as) = (step s a).bind fun t => run step t as := rfl

lemma run_cons_eq_some {s u : σ} {a : α} {as : List α} :
    run step s (a :: as) = some u ↔ ∃ t, step s a = some t ∧ run step t as = some u := by
  simp [Option.bind_eq_some_iff]

/-- A run along `as ++ bs` is a run along `as` followed by a run along `bs`. -/
lemma run_append {s u : σ} {as bs : List α} :
    run step s (as ++ bs) = some u ↔ ∃ t, run step s as = some t ∧ run step t bs = some u := by
  induction as generalizing s with
  | nil => simp
  | cons a as ih =>
      rw [List.cons_append, run_cons_eq_some]
      constructor
      · rintro ⟨t, ht, hrun⟩
        obtain ⟨t', ht', hrun'⟩ := ih.1 hrun
        exact ⟨t', run_cons_eq_some.2 ⟨t, ht, ht'⟩, hrun'⟩
      · rintro ⟨t', ht', hrun'⟩
        obtain ⟨t, ht, hrun⟩ := run_cons_eq_some.1 ht'
        exact ⟨t, ht, ih.2 ⟨t', hrun, hrun'⟩⟩

lemma Reaches.refl (s : σ) : Reaches step s s := ⟨[], rfl⟩

lemma Reaches.trans {s t u : σ} (h₁ : Reaches step s t) (h₂ : Reaches step t u) :
    Reaches step s u := by
  obtain ⟨as, has⟩ := h₁
  obtain ⟨bs, hbs⟩ := h₂
  exact ⟨as ++ bs, run_append.2 ⟨t, has, hbs⟩⟩

/-! ### Conditions on the steps of a run -/

section Along

variable {G G' : σ → α → Prop}

@[simp] lemma along_nil (s : σ) : Along step G s [] := trivial

lemma along_cons {s : σ} {a : α} {as : List α} :
    Along step G s (a :: as) ↔ G s a ∧ ∀ t, step s a = some t → Along step G t as := Iff.rfl

/-- A condition that can be checked at a step can be checked along a run. -/
instance decidableAlong [∀ s a, Decidable (G s a)] :
    (as : List α) → (s : σ) → Decidable (Along step G s as)
  | [], _ => .isTrue trivial
  | a :: as, s =>
      match h : step s a with
      | none => decidable_of_iff (G s a) (by simp [along_cons, h])
      | some t =>
          have := decidableAlong as t
          decidable_of_iff (G s a ∧ Along step G t as) (by simp [along_cons, h])

lemma Along.mono (hG : ∀ s a, G s a → G' s a) {as : List α} :
    ∀ {s : σ}, Along step G s as → Along step G' s as := by
  induction as with
  | nil => intro s _; trivial
  | cons a as ih => exact fun h => ⟨hG _ _ h.1, fun t ht => ih (h.2 t ht)⟩

lemma Along.and {as : List α} : ∀ {s : σ}, Along step G s as → Along step G' s as →
    Along step (fun t a => G t a ∧ G' t a) s as := by
  induction as with
  | nil => intro s _ _; trivial
  | cons a as ih => exact fun h h' => ⟨⟨h.1, h'.1⟩, fun t ht => ih (h.2 t ht) (h'.2 t ht)⟩

lemma along_append {as bs : List α} : ∀ {s : σ}, Along step G s as →
    (∀ t, run step s as = some t → Along step G t bs) → Along step G s (as ++ bs) := by
  induction as with
  | nil => exact fun _ h => h _ rfl
  | cons a as ih =>
      refine fun h h' => ⟨h.1, fun t ht => ih (h.2 t ht) fun u hu => h' u ?_⟩
      exact run_cons_eq_some.2 ⟨t, ht, hu⟩

/-- A condition on the actions alone holds along every run that takes only such actions. -/
lemma along_of_forall {P : α → Prop} {as : List α} (h : ∀ a ∈ as, P a) :
    ∀ s : σ, Along step (fun _ a => P a) s as := by
  induction as with
  | nil => exact fun _ => trivial
  | cons a as ih =>
      intro s
      refine ⟨h a List.mem_cons_self, fun t _ => ?_⟩
      exact ih (fun b hb => h b (List.mem_cons_of_mem a hb)) t

end Along

/-! ### Invariants -/

/-- What every step under the condition `G` preserves, every run under `G` preserves. -/
theorem run_invariant_along {G : σ → α → Prop} {I : σ → Prop}
    (hstep : ∀ s a t, I s → G s a → step s a = some t → I t) :
    ∀ {as : List α} {s t : σ}, I s → Along step G s as → run step s as = some t → I t := by
  intro as
  induction as with
  | nil =>
      intro s t hs _ hrun
      obtain rfl : s = t := by simpa using hrun
      exact hs
  | cons a as ih =>
      intro s u hs hG hrun
      obtain ⟨t, ht, hrun'⟩ := run_cons_eq_some.1 hrun
      exact ih (hstep s a t hs hG.1 ht) (hG.2 t ht) hrun'

lemma along_true (s : σ) (as : List α) : Along step (fun _ _ => True) s as := by
  induction as generalizing s with
  | nil => trivial
  | cons a as ih => exact ⟨trivial, fun t _ => ih t⟩

/-- What the invariant of a run under `G` gives at a step holds at every step of the run. -/
lemma along_of_invariant {G P : σ → α → Prop} {I : σ → Prop}
    (hstep : ∀ s a t, I s → G s a → step s a = some t → I t)
    (hP : ∀ s a, I s → G s a → P s a) {as : List α} :
    ∀ {s : σ}, I s → Along step G s as → Along step P s as := by
  induction as with
  | nil => intro s _ _; trivial
  | cons a as ih =>
      exact fun hs hG => ⟨hP _ a hs hG.1, fun t ht => ih (hstep _ a t hs hG.1 ht) (hG.2 t ht)⟩

/-- What every step preserves, every run preserves. -/
theorem run_invariant {I : σ → Prop} (hstep : ∀ s a t, I s → step s a = some t → I t)
    {as : List α} {s t : σ} (hs : I s) (hrun : run step s as = some t) : I t :=
  run_invariant_along (G := fun _ _ => True) (fun s a t hI _ ht => hstep s a t hI ht) hs
    (along_true s as) hrun

/-- The same for a property of the actions taken so far and the state that they lead to. -/
lemma run_history_from {G : σ → α → Prop} {I : List α → σ → Prop}
    (hstep : ∀ done s a t, I done s → G s a → step s a = some t → I (done ++ [a]) t) :
    ∀ {as done : List α} {s t : σ}, I done s → Along step G s as → run step s as = some t →
      I (done ++ as) t := by
  intro as
  induction as with
  | nil =>
      intro done s t hs _ hrun
      obtain rfl : s = t := by simpa using hrun
      rwa [List.append_nil]
  | cons a as ih =>
      intro done s u hs hG hrun
      obtain ⟨t, ht, hrun'⟩ := run_cons_eq_some.1 hrun
      rw [← List.singleton_append, ← List.append_assoc]
      exact ih (hstep done s a t hs hG.1 ht) (hG.2 t ht) hrun'

theorem run_history_along {G : σ → α → Prop} {I : List α → σ → Prop}
    (hstep : ∀ done s a t, I done s → G s a → step s a = some t → I (done ++ [a]) t)
    {as : List α} {s t : σ} (hs : I [] s) (halong : Along step G s as)
    (hrun : run step s as = some t) : I as t :=
  run_history_from hstep hs halong hrun

theorem run_history {I : List α → σ → Prop}
    (hstep : ∀ done s a t, I done s → step s a = some t → I (done ++ [a]) t)
    {as : List α} {s t : σ} (hs : I [] s) (hrun : run step s as = some t) : I as t :=
  run_history_along (G := fun _ _ => True) (fun done s a t hI _ ht => hstep done s a t hI ht) hs
    (along_true s as) hrun

/-- Where `G` is what a step needs to keep `I`, and to lead to a state with `P`, which `I` implies,
the states of a run have `P` exactly when its steps meet `G`. -/
theorem forall_prefix_iff_along_of {G : σ → α → Prop} {I P : σ → Prop} (hP : ∀ s, I s → P s)
    (hkeep : ∀ s a t, I s → G s a → step s a = some t → I t)
    (hneed : ∀ s a t, I s → step s a = some t → P t → G s a) {as : List α} :
    ∀ {s t : σ}, I s → run step s as = some t →
      ((∀ done u, done <+: as → run step s done = some u → P u) ↔ Along step G s as) := by
  induction as with
  | nil =>
      intro s t hs _
      refine iff_of_true (fun done u hdone hu => ?_) trivial
      rw [List.prefix_nil.1 hdone] at hu
      obtain rfl := Option.some.inj hu
      exact hP _ hs
  | cons a as ih =>
      intro s t hs hrun
      obtain ⟨v, hv, hrun'⟩ := run_cons_eq_some.1 hrun
      constructor
      · intro h
        have hPv : P v := h [a] v (by simp) (run_cons_eq_some.2 ⟨v, hv, rfl⟩)
        have hG := hneed s a v hs hv hPv
        refine ⟨hG, fun w hw => ?_⟩
        obtain rfl := Option.some.inj (hv.symm.trans hw)
        refine (ih (hkeep s a v hs hG hv) hrun').1 fun done u hdone hu => h (a :: done) u ?_ ?_
        · exact List.cons_prefix_cons.2 ⟨rfl, hdone⟩
        · exact run_cons_eq_some.2 ⟨v, hv, hu⟩
      · rintro ⟨hG, hrest⟩ done u hdone hu
        match done with
        | [] =>
            obtain rfl := Option.some.inj hu
            exact hP _ hs
        | b :: done =>
            obtain ⟨rfl, hdone'⟩ := List.cons_prefix_cons.1 hdone
            obtain ⟨w, hw, hu'⟩ := run_cons_eq_some.1 hu
            obtain rfl := Option.some.inj (hv.symm.trans hw)
            exact (ih (hkeep s b v hs hG hv) hrun').2 (hrest v hv) done u hdone' hu'

/-- Where a step keeps `I` exactly under `G`, the states of a run have `I` exactly when its steps
meet `G`. -/
theorem forall_prefix_iff_along {G : σ → α → Prop} {I K : σ → Prop}
    (hK : ∀ s a t, K s → step s a = some t → K t)
    (hstep : ∀ s a t, K s → I s → step s a = some t → (I t ↔ G s a)) {as : List α} {s t : σ}
    (hKs : K s) (hs : I s) (hrun : run step s as = some t) :
    (∀ done u, done <+: as → run step s done = some u → I u) ↔ Along step G s as :=
  forall_prefix_iff_along_of (I := fun s => K s ∧ I s) (fun _ h => h.2)
    (fun s a t h hG ht => ⟨hK s a t h.1 ht, (hstep s a t h.1 h.2 ht).2 hG⟩)
    (fun s a t h ht hI => (hstep s a t h.1 h.2 ht).1 hI) ⟨hKs, hs⟩ hrun

end StepSystem
