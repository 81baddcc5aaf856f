/-
Paths as lists of components.

`resolve` follows a path from a directory: a component stays where it is, goes up, or goes down
to a name.  Nothing goes up from the top.  `commonPrefix` is what two paths share when names are
compared by a key, so that names of the same key lead to the same place.
-/
import Mathlib.Data.List.Basic

namespace RelativePath

variable {ν κ : Type*}

/-! ### Following a path -/

/-- What a component of a path does. -/
inductive Component (ν : Type*) where
  | stay
  | up
  | down (name : ν)
deriving DecidableEq, Repr

/-- The directory that the path leads to from `here`. -/
def resolve (here : List ν) : List (Component ν) → List ν
  | [] => here
  | .stay :: path => resolve here path
  | .up :: path => resolve here.dropLast path
  | .down name :: path => resolve (here ++ [name]) path

/-- A path that only goes down. -/
@[simp] lemma resolve_map_down (here names : List ν) :
    resolve here (names.map .down) = here ++ names := by
  induction names generalizing here with
  | nil => exact (List.append_nil here).symm
  | cons name names ih =>
      rw [List.map_cons, resolve, ih, List.append_assoc, List.singleton_append]

/-- A path leads to names that it goes down to, or that it starts from. -/
lemma mem_resolve {here : List ν} {path : List (Component ν)} {name : ν}
    (h : name ∈ resolve here path) : name ∈ here ∨ .down name ∈ path := by
  induction path generalizing here with
  | nil => exact Or.inl h
  | cons c path ih =>
      cases c with
      | stay => exact (ih h).imp_right (List.mem_cons_of_mem _)
      | up =>
          exact (ih h).imp (fun hmem => List.dropLast_subset _ hmem) (List.mem_cons_of_mem _)
      | down name' =>
          rcases ih h with hmem | hmem
          · rcases List.mem_append.1 hmem with hhere | hname
            · exact Or.inl hhere
            · rw [List.mem_singleton.1 hname]
              exact Or.inr List.mem_cons_self
          · exact Or.inr (List.mem_cons_of_mem _ hmem)

/-! ### What two paths share -/

variable [DecidableEq κ] (key : ν → κ)

/-- The components of the first path up to the first that differs. -/
def commonPrefix : List ν → List ν → List ν
  | a :: as, b :: bs => if key a = key b then a :: commonPrefix as bs else []
  | _, _ => []

lemma commonPrefix_eq_left_iff {as bs : List ν} :
    commonPrefix key as bs = as ↔ as.map key <+: bs.map key := by
  induction as generalizing bs with
  | nil => simp [commonPrefix]
  | cons a as ih =>
      cases bs with
      | nil => simp [commonPrefix]
      | cons b bs =>
          rw [commonPrefix, List.map_cons, List.map_cons, List.cons_prefix_cons]
          by_cases h : key a = key b
          · simp [h, ih]
          · simp [h]

end RelativePath
