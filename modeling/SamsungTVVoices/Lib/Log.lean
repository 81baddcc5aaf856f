/-
Logs of the events of a run, and what holds of an event given the events before it.

`recordStep` adds to a system a log of what is observed of its steps, and takes nothing away from
its runs (`run_recordStep`).  A property of all events of a log in the light of the events before
them is `Always φ`; that something has happened, and nothing has undone it, is `Since φ undo`.  Both
are decided event by event (`always_concat`, `since_concat`), so an invariant of the recorded system
speaks about the whole past of a state.
-/
import SamsungTVVoices.Lib.StepSystem

variable {σ α ω : Type*}

/-! ### Events in the light of those before them -/

namespace EventLog

variable {φ : List ω → ω → Prop} {undo : ω → Prop} {log : List ω} {e : ω}

/-- Where an event of a log with a new event stands. -/
lemma concat_eq_append_cons {before after : List ω} {x : ω} :
    log ++ [e] = before ++ x :: after ↔
      (before = log ∧ x = e ∧ after = []) ∨
        ∃ after', log = before ++ x :: after' ∧ after = after' ++ [e] := by
  constructor
  · intro h
    rcases List.eq_nil_or_concat after with rfl | ⟨after', last, rfl⟩
    · obtain ⟨rfl, hx⟩ := List.append_inj' h rfl
      exact Or.inl ⟨rfl, (List.singleton_inj.1 hx).symm, rfl⟩
    · have hsplit : log ++ [e] = (before ++ x :: after') ++ [last] := by simpa using h
      obtain ⟨rfl, hlast⟩ := List.append_inj' hsplit rfl
      exact Or.inr ⟨after', rfl, by rw [List.concat_eq_append, List.singleton_inj.1 hlast]⟩
  · rintro (⟨rfl, rfl, rfl⟩ | ⟨after', rfl, rfl⟩)
    · rfl
    · simp

/-- Every event of the log is as it should be after the events before it. -/
def Always (φ : List ω → ω → Prop) (log : List ω) : Prop :=
  ∀ before x after, log = before ++ x :: after → φ before x

lemma always_nil : Always φ [] := by
  intro before x after h
  simp at h

lemma always_concat : Always φ (log ++ [e]) ↔ Always φ log ∧ φ log e := by
  constructor
  · intro h
    refine ⟨fun before x after hlog => ?_, h log e [] rfl⟩
    exact h before x (after ++ [e]) (by rw [hlog, List.append_assoc, List.cons_append])
  · rintro ⟨hlog, he⟩ before x after heq
    rcases concat_eq_append_cons.1 heq with ⟨rfl, rfl, -⟩ | ⟨after', heq', -⟩
    · exact he
    · exact hlog before x after' heq'

/-- Some event was as described by `φ`, given the events before it, and no event since undoes it. -/
def Since (φ : List ω → ω → Prop) (undo : ω → Prop) (log : List ω) : Prop :=
  ∃ before x after, log = before ++ x :: after ∧ φ before x ∧ ∀ y ∈ after, ¬ undo y

lemma not_since_nil : ¬ Since φ undo [] := by
  rintro ⟨before, x, after, h, -⟩
  simp at h

lemma since_concat : Since φ undo (log ++ [e]) ↔ φ log e ∨ Since φ undo log ∧ ¬ undo e := by
  constructor
  · rintro ⟨before, x, after, heq, hx, hafter⟩
    rcases concat_eq_append_cons.1 heq with ⟨rfl, rfl, -⟩ | ⟨after', rfl, rfl⟩
    · exact Or.inl hx
    · refine Or.inr ⟨⟨before, x, after', rfl, hx, fun y hy => ?_⟩, ?_⟩
      · exact hafter y (List.mem_append_left _ hy)
      · exact hafter e (List.mem_append_right _ (List.mem_singleton.2 rfl))
  · rintro (he | ⟨⟨before, x, after, rfl, hx, hafter⟩, he⟩)
    · exact ⟨log, e, [], rfl, he, by simp⟩
    · refine ⟨before, x, after ++ [e], by simp, hx, fun y hy => ?_⟩
      rcases List.mem_append.1 hy with hy | hy
      · exact hafter y hy
      · rwa [List.mem_singleton.1 hy]

end EventLog

/-! ### Recording -/

namespace StepSystem

variable (step : σ → α → Option σ) (observe : σ → α → Option ω)

/-- The system with a log of what is observed of its steps. -/
def recordStep (s : σ × List ω) (a : α) : Option (σ × List ω) :=
  (step s.1 a).map fun t => (t, s.2 ++ (observe s.1 a).toList)

variable {step observe}

lemma exists_recordStep {s t : σ × List ω} {a : α} (h : recordStep step observe s a = some t) :
    step s.1 a = some t.1 ∧ t.2 = s.2 ++ (observe s.1 a).toList := by
  obtain ⟨u, hu, rfl⟩ := Option.map_eq_some_iff.1 h
  exact ⟨hu, rfl⟩

/-- The system with the log runs as the system does. -/
theorem run_recordStep (s : σ × List ω) (as : List α) :
    (run (recordStep step observe) s as).map Prod.fst = run step s.1 as := by
  induction as generalizing s with
  | nil => rfl
  | cons a as ih =>
      rw [run_cons, run_cons, recordStep]
      cases step s.1 a with
      | none => rfl
      | some t => exact ih _

end StepSystem
