import GoBuild.Expr.Basic

/-!
# Values that settled tags determine

If some tags are settled and the three-valued value of an expression is determined, then it is the
value of the expression whatever the open tags are (`Expr.eval_of_partialEval`). The converse holds if
no open tag occurs twice (`Expr.ReadsOnce`): then the expression takes every value that the settled
tags do not exclude (`Expr.exists_extends_eval_eq`). Like the value, the three-valued value depends on
the mentioned tags only (`Expr.partialEval_congr`).
-/

namespace GoBuild.Expr

/-- The valuation gives every settled tag its settled value. -/
def Extends (v : String → Bool) (settled : String → Option Bool) : Prop :=
  ∀ t b, settled t = some b → v t = b

theorem kleeneAnd_eq_true_iff {x y : Option Bool} :
    kleeneAnd x y = some true ↔ x = some true ∧ y = some true := by
  rcases x with _ | _ | _ <;> rcases y with _ | _ | _ <;> simp [kleeneAnd]

theorem kleeneAnd_eq_false_iff {x y : Option Bool} :
    kleeneAnd x y = some false ↔ x = some false ∨ y = some false := by
  rcases x with _ | _ | _ <;> rcases y with _ | _ | _ <;> simp [kleeneAnd]

theorem kleeneOr_eq_true_iff {x y : Option Bool} :
    kleeneOr x y = some true ↔ x = some true ∨ y = some true := by
  rcases x with _ | _ | _ <;> rcases y with _ | _ | _ <;> simp [kleeneOr]

theorem kleeneOr_eq_false_iff {x y : Option Bool} :
    kleeneOr x y = some false ↔ x = some false ∧ y = some false := by
  rcases x with _ | _ | _ <;> rcases y with _ | _ | _ <;> simp [kleeneOr]

/-- A determined value of a conjunction is that of one of its sides. -/
theorem eq_or_eq_of_kleeneAnd {x y : Option Bool} {b : Bool} (h : kleeneAnd x y = some b) :
    x = some b ∨ y = some b := by
  cases b with
  | true => exact Or.inl (kleeneAnd_eq_true_iff.1 h).1
  | false => exact kleeneAnd_eq_false_iff.1 h

/-- A determined value of a disjunction is that of one of its sides. -/
theorem eq_or_eq_of_kleeneOr {x y : Option Bool} {b : Bool} (h : kleeneOr x y = some b) :
    x = some b ∨ y = some b := by
  cases b with
  | true => exact kleeneOr_eq_true_iff.1 h
  | false => exact Or.inl (kleeneOr_eq_false_iff.1 h).1

/-- A determined value is the value under every valuation of the open tags. -/
theorem eval_of_partialEval {settled : String → Option Bool} {v : String → Bool} {x : Expr}
    {b : Bool} (hv : Extends v settled) (h : x.partialEval settled = some b) : x.eval v = b := by
  induction x generalizing b with
  | tag name => exact hv name b h
  | not x ih =>
    obtain ⟨c, hc, rfl⟩ := Option.map_eq_some_iff.1 h
    exact congrArg Bool.not (ih hc)
  | and x y ihx ihy =>
    cases b with
    | true =>
      obtain ⟨hx, hy⟩ := kleeneAnd_eq_true_iff.1 h
      simp only [eval, ihx hx, ihy hy, Bool.and_self]
    | false =>
      rcases kleeneAnd_eq_false_iff.1 h with hx | hy
      · rw [eval, ihx hx, Bool.false_and]
      · rw [eval, ihy hy, Bool.and_false]
  | or x y ihx ihy =>
    cases b with
    | true =>
      rcases kleeneOr_eq_true_iff.1 h with hx | hy
      · rw [eval, ihx hx, Bool.true_or]
      · rw [eval, ihy hy, Bool.or_true]
    | false =>
      obtain ⟨hx, hy⟩ := kleeneOr_eq_false_iff.1 h
      simp only [eval, ihx hx, ihy hy, Bool.or_self]

/-- The three-valued value depends on the mentioned tags only. -/
theorem partialEval_congr {v w : String → Option Bool} {x : Expr} (h : ∀ t ∈ x.atoms, v t = w t) :
    x.partialEval v = x.partialEval w := by
  induction x with
  | tag name => exact h name (by simp)
  | not x ih =>
    rw [partialEval, ih h]
    rfl
  | and x y ihx ihy =>
    simp only [atoms_and, List.mem_append] at h
    have hx := ihx fun t ht => h t (Or.inl ht)
    have hy := ihy fun t ht => h t (Or.inr ht)
    simp only [partialEval, hx, hy]
  | or x y ihx ihy =>
    simp only [atoms_or, List.mem_append] at h
    have hx := ihx fun t ht => h t (Or.inl ht)
    have hy := ihy fun t ht => h t (Or.inr ht)
    simp only [partialEval, hx, hy]

/-! ### Open tags that occur once -/

variable {settled : String → Option Bool} {v w : String → Bool} {x y : Expr}

/-- No open tag occurs twice in the expression. -/
def ReadsOnce (x : Expr) (settled : String → Option Bool) : Prop :=
  ∀ t ∈ x.atoms, settled t = none → x.atoms.count t ≤ 1

instance (x : Expr) (settled : String → Option Bool) : Decidable (x.ReadsOnce settled) :=
  inferInstanceAs (Decidable (∀ t ∈ x.atoms, _))

/-- Operands that share no open tag. -/
def Apart (x y : Expr) (settled : String → Option Bool) : Prop :=
  ∀ t ∈ x.atoms, t ∈ y.atoms → settled t ≠ none

/-- The operands of an expression without an open tag that occurs twice have none either, and share
none. -/
theorem ReadsOnce.operands {z : Expr} (h : z.ReadsOnce settled) (hz : z.atoms = x.atoms ++ y.atoms) :
    x.ReadsOnce settled ∧ y.ReadsOnce settled ∧ x.Apart y settled := by
  have hcount : ∀ t, t ∈ x.atoms ∨ t ∈ y.atoms → settled t = none →
      x.atoms.count t + y.atoms.count t ≤ 1 := by
    intro t ht hopen
    have hle := h t (by rw [hz]; exact List.mem_append.2 ht) hopen
    rwa [hz, List.count_append] at hle
  refine ⟨fun t ht hopen => ?_, fun t ht hopen => ?_, fun t hx hy hopen => ?_⟩
  · have hle := hcount t (Or.inl ht) hopen
    omega
  · have hle := hcount t (Or.inr ht) hopen
    omega
  · have hle := hcount t (Or.inl hx) hopen
    have hposx := List.count_pos_iff.2 hx
    have hposy := List.count_pos_iff.2 hy
    omega

/-- The valuation that is `v` on the tags of the expression and `w` on the others. -/
def splice (x : Expr) (v w : String → Bool) : String → Bool :=
  fun t => if t ∈ x.atoms then v t else w t

theorem Extends.splice (hv : Extends v settled) (hw : Extends w settled) :
    Extends (x.splice v w) settled := by
  intro t b hb
  unfold Expr.splice
  split
  · exact hv t b hb
  · exact hw t b hb

theorem eval_splice_left (x : Expr) (v w : String → Bool) : x.eval (x.splice v w) = x.eval v :=
  eval_congr fun _ ht => if_pos ht

/-- On a tag of both operands the two valuations agree, since it is settled. -/
theorem eval_splice_right (hv : Extends v settled) (hw : Extends w settled)
    (h : x.Apart y settled) : y.eval (x.splice v w) = y.eval w := by
  refine eval_congr fun t ht => ?_
  unfold splice
  split
  · rename_i hx
    obtain ⟨b, hb⟩ := Option.ne_none_iff_exists'.1 (h t hx ht)
    rw [hv t b hb, hw t b hb]
  · rfl

/-- Values that operands take apart from each other they also take together. -/
theorem exists_extends_both (hv : Extends v settled) (hw : Extends w settled)
    (h : x.Apart y settled) :
    ∃ u, Extends u settled ∧ x.eval u = x.eval v ∧ y.eval u = y.eval w :=
  ⟨x.splice v w, hv.splice hw, x.eval_splice_left v w, eval_splice_right hv hw h⟩

/-- If no open tag occurs twice, an expression takes every value that is not excluded by a determined
value. -/
theorem exists_extends_eval_eq {b : Bool} (hx : x.ReadsOnce settled)
    (h : x.partialEval settled ≠ some (!b)) : ∃ v, Extends v settled ∧ x.eval v = b := by
  -- A negation asks its operand for the other value, so the induction has to range over `b`.
  induction x generalizing b with
  | tag name =>
    refine ⟨fun t => (settled t).getD b, fun t c hc => congrArg (Option.getD · b) hc, ?_⟩
    change (settled name).getD b = b
    cases hname : settled name with
    | none => rfl
    | some c =>
      have hne : c ≠ !b := fun hc => h (by rw [partialEval, hname, hc])
      simpa using hne
  | not x ih =>
    have hne : x.partialEval settled ≠ some (!(!b)) := fun hc =>
      h (by rw [partialEval, hc, Option.map_some]; simp)
    obtain ⟨v, hv, hb⟩ := ih hx hne
    exact ⟨v, hv, by rw [eval, hb, Bool.not_not]⟩
  | and x y ihx ihy =>
    obtain ⟨hx, hy, hapart⟩ := hx.operands (atoms_and x y)
    rw [partialEval] at h
    cases b with
    | true =>
      have hne := not_or.1 (mt kleeneAnd_eq_false_iff.2 h)
      obtain ⟨v, hv, hbx⟩ := ihx hx (b := true) hne.1
      obtain ⟨w, hw, hby⟩ := ihy hy (b := true) hne.2
      obtain ⟨u, hu, hux, huy⟩ := exists_extends_both hv hw hapart
      exact ⟨u, hu, by rw [eval, hux, huy, hbx, hby, Bool.and_self]⟩
    | false =>
      rcases Classical.not_and_iff_not_or_not.1 (mt kleeneAnd_eq_true_iff.2 h) with hne | hne
      · obtain ⟨v, hv, hb⟩ := ihx hx (b := false) hne
        exact ⟨v, hv, by rw [eval, hb, Bool.false_and]⟩
      · obtain ⟨v, hv, hb⟩ := ihy hy (b := false) hne
        exact ⟨v, hv, by rw [eval, hb, Bool.and_false]⟩
  | or x y ihx ihy =>
    obtain ⟨hx, hy, hapart⟩ := hx.operands (atoms_or x y)
    rw [partialEval] at h
    cases b with
    | true =>
      rcases Classical.not_and_iff_not_or_not.1 (mt kleeneOr_eq_false_iff.2 h) with hne | hne
      · obtain ⟨v, hv, hb⟩ := ihx hx (b := true) hne
        exact ⟨v, hv, by rw [eval, hb, Bool.true_or]⟩
      · obtain ⟨v, hv, hb⟩ := ihy hy (b := true) hne
        exact ⟨v, hv, by rw [eval, hb, Bool.or_true]⟩
    | false =>
      have hne := not_or.1 (mt kleeneOr_eq_true_iff.2 h)
      obtain ⟨v, hv, hbx⟩ := ihx hx (b := false) hne.1
      obtain ⟨w, hw, hby⟩ := ihy hy (b := false) hne.2
      obtain ⟨u, hu, hux, huy⟩ := exists_extends_both hv hw hapart
      exact ⟨u, hu, by rw [eval, hux, huy, hbx, hby, Bool.or_self]⟩

end GoBuild.Expr
