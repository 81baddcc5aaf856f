/-
Replaying a log of assignments.

A store has a value for each key, and a log says which values have been assigned since it was
written down.  After the log has been replayed, the value of a key is the one that was assigned
last, or, if none was, the one that the store had (`replay_apply`).
-/
import Mathlib.Data.List.Basic
import Mathlib.Data.List.Induction
import Mathlib.Logic.Function.Basic
import Mathlib.Order.Lattice

namespace Replay

variable {κ ν : Type*} [DecidableEq κ]

/-- The store after the assignments of a log. -/
def replay (f : κ → ν) (log : List (κ × ν)) : κ → ν :=
  log.foldl (fun f a => Function.update f a.1 a.2) f

/-- The value that was assigned to a key last. -/
def latest (log : List (κ × ν)) (k : κ) : Option ν := (log.reverse.find? (·.1 = k)).map Prod.snd

variable {f : κ → ν} {log log' : List (κ × ν)} {k : κ}

lemma replay_append : replay f (log ++ log') = replay (replay f log) log' := List.foldl_append

lemma replay_concat (a : κ × ν) :
    replay f (log ++ [a]) = Function.update (replay f log) a.1 a.2 := replay_append

lemma latest_concat (a : κ × ν) :
    latest (log ++ [a]) k = if a.1 = k then some a.2 else latest log k := by
  rw [latest, List.reverse_append, List.reverse_singleton, List.singleton_append, List.find?_cons]
  by_cases h : a.1 = k
  · simp [h]
  · simp [h, latest]

/-- **The last assignment counts.** -/
theorem replay_apply : replay f log k = (latest log k).getD (f k) := by
  induction log using List.reverseRecOn with
  | nil => rfl
  | append_singleton log a ih =>
      rw [replay_concat, latest_concat]
      by_cases h : a.1 = k
      · subst h
        rw [Function.update_self, if_pos rfl, Option.getD_some]
      · rw [Function.update_of_ne (Ne.symm h), if_neg h, ih]

end Replay
