import GoBuild.Proofs.Expr.Partial

/-!
# The directions in which tags occur

Every occurrence of a tag in an expression has a direction (`Expr.occurrences`), and `Expr.lookup`
gives that of the first one. An expression is true if every occurrence gets the value that it asks
for (`Expr.eval_eq_of_occurrences`), and one that is true stays true when each tag changes only as its
occurrences ask for (`Expr.eval_of_favours`). A tag that occurs in one direction only
(`Expr.OneDirection`) is therefore best set to the value that `Expr.lookup` names. If settled tags
determine the value, then one of their occurrences asks for it
(`Expr.exists_occurrence_of_partialEval`).
-/

namespace GoBuild

/-- Changing a tag from the value `a` to the value `b` cannot hurt an occurrence in the direction. -/
def Polarity.Favours : Polarity → Bool → Bool → Prop
  | positive, a, b => a = true → b = true
  | negative, a, b => b = true → a = true

theorem Polarity.favours_refl (d : Polarity) (a : Bool) : d.Favours a a := by
  cases d <;> exact id

theorem Polarity.favours_flip (d : Polarity) (a b : Bool) : d.flip.Favours a b ↔ d.Favours b a := by
  cases d <;> rfl

/-- The value that an occurrence asks for is at least as good as any other. -/
theorem Polarity.favours_isPositive (d : Polarity) (a : Bool) : d.Favours a d.isPositive := by
  cases d
  · exact fun _ => rfl
  · exact fun h => absurd h (by decide)

namespace Expr

/-- The occurrences of tags from left to right, each with the direction in which it counts. -/
def occurrences : Expr → List (String × Polarity)
  | tag name => [(name, .positive)]
  | not x => x.occurrences.map fun o => (o.1, o.2.flip)
  | and x y => x.occurrences ++ y.occurrences
  | or x y => x.occurrences ++ y.occurrences

/-- The tag does not occur in both directions. -/
def OneDirection (x : Expr) (t : String) : Prop :=
  ¬ ((t, .positive) ∈ x.occurrences ∧ (t, .negative) ∈ x.occurrences)

instance (x : Expr) (t : String) : Decidable (x.OneDirection t) :=
  inferInstanceAs (Decidable (¬ (_ ∧ _)))

theorem mem_occurrences_not {t : String} {d : Polarity} {x : Expr} :
    (t, d) ∈ x.not.occurrences ↔ (t, d.flip) ∈ x.occurrences := by
  simp only [occurrences, List.mem_map, Prod.mk.injEq, Prod.exists]
  constructor
  · rintro ⟨t', d', h, rfl, rfl⟩
    rwa [Polarity.flip_flip]
  · exact fun h => ⟨t, d.flip, h, rfl, d.flip_flip⟩

theorem lookup_eq_find?_occurrences (x : Expr) (t : String) :
    x.lookup t = (x.occurrences.find? (·.1 = t)).map (·.2) := by
  induction x with
  | tag name => by_cases h : name = t <;> simp [lookup, occurrences, h]
  | not x ih =>
    rw [lookup, ih, occurrences, List.find?_map, Option.map_map, Option.map_map]
    rfl
  | and x y ihx ihy | or x y ihx ihy =>
    rw [lookup, ihx, ihy, occurrences, List.find?_append, Option.map_or]

/-- The direction that `lookup` gives is that of the first occurrence. -/
theorem lookup_eq_some_iff {t : String} {d : Polarity} {x : Expr} :
    x.lookup t = some d ↔ x.occurrences.find? (·.1 = t) = some (t, d) := by
  rw [lookup_eq_find?_occurrences, Option.map_eq_some_iff]
  constructor
  · rintro ⟨⟨t', d'⟩, h, rfl⟩
    have ht : t' = t := by simpa using List.find?_some h
    rw [h, ht]
  · exact fun h => ⟨(t, d), h, rfl⟩

theorem mem_occurrences_of_lookup {t : String} {d : Polarity} {x : Expr}
    (h : x.lookup t = some d) : (t, d) ∈ x.occurrences :=
  List.mem_of_find?_eq_some (lookup_eq_some_iff.1 h)

theorem mem_atoms_of_mem_occurrences {t : String} {d : Polarity} {x : Expr}
    (h : (t, d) ∈ x.occurrences) : t ∈ x.atoms := by
  induction x generalizing d with
  | tag name =>
    simp only [occurrences, List.mem_singleton, Prod.mk.injEq] at h
    simp [h.1]
  | not x ih => exact ih (mem_occurrences_not.1 h)
  | and x y ihx ihy | or x y ihx ihy =>
    rcases List.mem_append.1 h with h | h
    · simp [ihx h]
    · simp [ihy h]

/-- If a tag occurs in one direction only, `lookup` gives it. -/
theorem OneDirection.lookup_eq {t : String} {d : Polarity} {x : Expr} (hx : x.OneDirection t)
    (h : (t, d) ∈ x.occurrences) : x.lookup t = some d := by
  obtain ⟨e, he⟩ := Option.isSome_iff_exists.1 (isSome_lookup.2 (mem_atoms_of_mem_occurrences h))
  have hmem := mem_occurrences_of_lookup he
  have hde : e = d := by
    cases d <;> cases e
    · rfl
    · exact absurd ⟨h, hmem⟩ hx
    · exact absurd ⟨hmem, h⟩ hx
    · rfl
  rw [he, hde]

/-- If the value of each tag is the one that its occurrences ask for, the expression is true, and if it
is the opposite one, the expression is false. -/
theorem eval_eq_of_occurrences {v : String → Bool} {x : Expr} {b : Bool}
    (h : ∀ t d, (t, d) ∈ x.occurrences → v t = (d.isPositive == b)) : x.eval v = b := by
  -- Under a negation the occurrences ask for the opposite, so the induction has to range over `b`.
  induction x generalizing b with
  | tag name =>
    have hname := h name .positive (by simp [occurrences])
    simpa [eval, Polarity.isPositive] using hname
  | not x ih =>
    have hx : x.eval v = !b := ih fun t d ht => by
      have hflip := h t d.flip (mem_occurrences_not.2 (by rwa [Polarity.flip_flip]))
      rw [hflip, Polarity.isPositive_flip]
      cases d.isPositive <;> cases b <;> rfl
    rw [eval, hx, Bool.not_not]
  | and x y ihx ihy =>
    have hx := ihx fun t d ht => h t d (List.mem_append_left _ ht)
    have hy := ihy fun t d ht => h t d (List.mem_append_right _ ht)
    rw [eval, hx, hy, Bool.and_self]
  | or x y ihx ihy =>
    have hx := ihx fun t d ht => h t d (List.mem_append_left _ ht)
    have hy := ihy fun t d ht => h t d (List.mem_append_right _ ht)
    rw [eval, hx, hy, Bool.or_self]

/-- A true expression stays true if each tag changes only as its occurrences ask for. -/
theorem eval_of_favours {v w : String → Bool} {x : Expr}
    (h : ∀ t d, (t, d) ∈ x.occurrences → d.Favours (v t) (w t)) (hv : x.eval v = true) :
    x.eval w = true := by
  -- A negation swaps the two valuations, so the induction has to range over both.
  induction x generalizing v w with
  | tag name => exact h name .positive (by simp [occurrences]) hv
  | not x ih =>
    simp only [eval, Bool.not_eq_true'] at hv ⊢
    rw [← Bool.not_eq_true]
    intro hw
    refine absurd (ih (fun t d ht => ?_) hw) (by rw [hv]; decide)
    rw [← Polarity.favours_flip]
    exact h t d.flip (mem_occurrences_not.2 (by rwa [Polarity.flip_flip]))
  | and x y ihx ihy =>
    simp only [eval, Bool.and_eq_true] at hv ⊢
    exact ⟨ihx (fun t d ht => h t d (List.mem_append_left _ ht)) hv.1,
      ihy (fun t d ht => h t d (List.mem_append_right _ ht)) hv.2⟩
  | or x y ihx ihy =>
    simp only [eval, Bool.or_eq_true] at hv ⊢
    rcases hv with hv | hv
    · exact Or.inl (ihx (fun t d ht => h t d (List.mem_append_left _ ht)) hv)
    · exact Or.inr (ihy (fun t d ht => h t d (List.mem_append_right _ ht)) hv)

/-- If an expression is true by its settled tags, one of them has the value that an occurrence of it
asks for, and if it is false, one has the opposite of such a value. -/
theorem exists_occurrence_of_partialEval {settled : String → Option Bool} {x : Expr} {b : Bool}
    (h : x.partialEval settled = some b) :
    ∃ t d, (t, d) ∈ x.occurrences ∧ settled t = some (d.isPositive == b) := by
  -- Under a negation the occurrences ask for the opposite, so the induction has to range over `b`.
  induction x generalizing b with
  | tag name =>
    rw [partialEval] at h
    exact ⟨name, .positive, by simp [occurrences], by simp [Polarity.isPositive, h]⟩
  | not x ih =>
    obtain ⟨c, hc, rfl⟩ := Option.map_eq_some_iff.1 h
    obtain ⟨t, d, hmem, hsettled⟩ := ih hc
    refine ⟨t, d.flip, mem_occurrences_not.2 (by rwa [Polarity.flip_flip]), ?_⟩
    rw [hsettled, Polarity.isPositive_flip]
    cases d.isPositive <;> cases c <;> rfl
  | and x y ihx ihy =>
    rcases eq_or_eq_of_kleeneAnd h with hx | hy
    · obtain ⟨t, d, hmem, hsettled⟩ := ihx hx
      exact ⟨t, d, List.mem_append_left _ hmem, hsettled⟩
    · obtain ⟨t, d, hmem, hsettled⟩ := ihy hy
      exact ⟨t, d, List.mem_append_right _ hmem, hsettled⟩
  | or x y ihx ihy =>
    rcases eq_or_eq_of_kleeneOr h with hx | hy
    · obtain ⟨t, d, hmem, hsettled⟩ := ihx hx
      exact ⟨t, d, List.mem_append_left _ hmem, hsettled⟩
    · obtain ⟨t, d, hmem, hsettled⟩ := ihy hy
      exact ⟨t, d, List.mem_append_right _ hmem, hsettled⟩

end Expr

end GoBuild
