import GoBuild.Expr.Basic

/-!
# Conjunctions and disjunctions of lists

The value and the tags of `Expr.conj?` and `Expr.disj?` are those of the expressions they join.
-/

namespace GoBuild.Expr

theorem eval_foldl_and (v : String → Bool) (x : Expr) (xs : List Expr) :
    (xs.foldl and x).eval v = (x.eval v && xs.all (·.eval v)) := by
  induction xs generalizing x with
  | nil => simp
  | cons y ys ih => rw [List.foldl_cons, ih, eval, List.all_cons, Bool.and_assoc]

theorem atoms_foldl_and (x : Expr) (xs : List Expr) :
    (xs.foldl and x).atoms = x.atoms ++ xs.flatMap atoms := by
  induction xs generalizing x with
  | nil => simp
  | cons y ys ih => rw [List.foldl_cons, ih, atoms_and, List.flatMap_cons, List.append_assoc]

theorem conj?_eq_none_iff {xs : List Expr} : conj? xs = none ↔ xs = [] := by
  cases xs <;> simp [conj?]

/-- The conjunction is true exactly if all the expressions are. -/
theorem eval_conj? (v : String → Bool) (xs : List Expr) :
    (conj? xs).elim true (eval v) = xs.all (eval v) := by
  cases xs with
  | nil => rfl
  | cons x xs => exact eval_foldl_and v x xs

theorem atoms_conj? (xs : List Expr) : (conj? xs).elim [] atoms = xs.flatMap atoms := by
  cases xs with
  | nil => rfl
  | cons x xs => exact atoms_foldl_and x xs

theorem eval_foldl_or (v : String → Bool) (x : Expr) (xs : List Expr) :
    (xs.foldl or x).eval v = (x.eval v || xs.any (·.eval v)) := by
  induction xs generalizing x with
  | nil => simp
  | cons y ys ih => rw [List.foldl_cons, ih, eval, List.any_cons, Bool.or_assoc]

/-- The disjunction is true exactly if one of the expressions is. -/
theorem eval_disj? (v : String → Bool) (xs : List Expr) :
    (disj? xs).elim false (eval v) = xs.any (eval v) := by
  cases xs with
  | nil => rfl
  | cons x xs => exact eval_foldl_or v x xs

theorem atoms_foldl_or (x : Expr) (xs : List Expr) :
    (xs.foldl or x).atoms = x.atoms ++ xs.flatMap atoms := by
  induction xs generalizing x with
  | nil => simp
  | cons y ys ih => rw [List.foldl_cons, ih, atoms_or, List.flatMap_cons, List.append_assoc]

theorem atoms_disj? (xs : List Expr) : (disj? xs).elim [] atoms = xs.flatMap atoms := by
  cases xs with
  | nil => rfl
  | cons x xs => exact atoms_foldl_or x xs

theorem mem_atoms_of_conj? {xs : List Expr} {x : Expr} (h : conj? xs = some x) {t : String}
    (ht : t ∈ x.atoms) : ∃ y ∈ xs, t ∈ y.atoms := by
  have hatoms := atoms_conj? xs
  rw [h, Option.elim_some] at hatoms
  rwa [hatoms, List.mem_flatMap] at ht

theorem mem_atoms_of_disj? {xs : List Expr} {x : Expr} (h : disj? xs = some x) {t : String}
    (ht : t ∈ x.atoms) : ∃ y ∈ xs, t ∈ y.atoms := by
  have hatoms := atoms_disj? xs
  rw [h, Option.elim_some] at hatoms
  rwa [hatoms, List.mem_flatMap] at ht

end GoBuild.Expr
