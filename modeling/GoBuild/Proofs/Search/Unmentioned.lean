import GoBuild.Proofs.Context.Tags
import GoBuild.Proofs.Search.Tries

/-!
# What a constraint does not mention

A constraint that mentions no architecture has the same value on all known ones
(`Problem.holds_setArch`), and the same goes for operating systems and for cgo. So the two settings
of cgo that the search tries on a platform stand for all settings that the platform supports
(`Problem.exists_moves`).
-/

namespace GoBuild.Problem

variable {p : Problem}

/-- The value of the constraint depends on the mentioned tags only. -/
theorem holds_congr {c d : Context} (h : ∀ t ∈ p.expr.atoms, c.satisfies t = d.satisfies t) :
    p.holds c = p.holds d :=
  Expr.eval_congr h

/-- Cgo does not matter to a constraint that does not mention it. -/
theorem holds_setCgo (h : p.mentionsCgo = false) (c : Context) (on : Bool) :
    p.holds { c with cgo := on } = p.holds c := by
  refine holds_congr fun t ht => ?_
  have hne : t ≠ cgoTag := by
    rintro rfl
    rw [mentionsCgo, Expr.mentions, Expr.isSome_lookup.2 ht] at h
    cases h
  simp only [Context.satisfies, Context.knowsAliases, Context.hasTag, decide_eq_false hne,
    Bool.and_false]

/-- The architecture does not matter to a constraint that mentions none. -/
theorem holds_setArch (h : p.mentionsArch = false) {arch arch' : String}
    (harch : isKnownArch arch = true) (harch' : isKnownArch arch' = true) (c : Context) :
    p.holds { c with arch := arch } = p.holds { c with arch := arch' } := by
  refine holds_congr fun t ht => ?_
  have hunknown : ¬ isKnownArch t = true := List.any_eq_false.1 h t ht
  have hne : t ≠ arch := fun heq => hunknown (heq ▸ harch)
  have hne' : t ≠ arch' := fun heq => hunknown (heq ▸ harch')
  simp only [Context.satisfies, Context.knowsAliases, Context.hasTag, decide_eq_false hne,
    decide_eq_false hne']

/-- The operating system does not matter to a constraint that mentions neither one nor `unix`. -/
theorem holds_setOs (h : p.mentionsOs = false) {os os' : String} (hos : isKnownOs os = true)
    (hos' : isKnownOs os' = true) (c : Context) :
    p.holds { c with os := os } = p.holds { c with os := os' } := by
  refine holds_congr fun t ht => ?_
  obtain ⟨hunknown, hunix⟩ : ¬ isKnownOs t = true ∧ t ≠ unixTag := by
    simpa using List.any_eq_false.1 h t ht
  have hne : t ≠ os := fun heq => hunknown (heq ▸ hos)
  have hne' : t ≠ os' := fun heq => hunknown (heq ▸ hos')
  have himplied : ∀ own, impliedOs? own ≠ some t := fun own himplied =>
    hunknown (isKnownOs_of_impliedOs? himplied)
  simp only [Context.satisfies, Context.knowsAliases, Context.hasTag, decide_eq_false hne,
    decide_eq_false hne', decide_eq_false (himplied _), decide_eq_false hunix, Bool.and_false,
    Bool.false_and]

/-- To know whether the constraint holds with cgo set to `on`, it is enough to look at a context
`kept`, and, if the constraint mentions cgo, at the same context with the other setting. -/
theorem exists_of_flip {Q : Context → Prop} {kept : Context} {on : Bool} (hkept : Q kept)
    (hflip : p.mentionsCgo = true → on ≠ kept.cgo → Q { kept with cgo := !kept.cgo }) :
    ∃ c, Q c ∧ p.holds c = p.holds { kept with cgo := on } := by
  by_cases hcgo : on = kept.cgo
  · exact ⟨kept, hkept, by rw [hcgo]⟩
  by_cases hmentions : p.mentionsCgo = true
  · exact ⟨_, hflip hmentions hcgo, by rw [Bool.eq_not_of_ne hcgo]⟩
  · rw [Bool.not_eq_true] at hmentions
    exact ⟨kept, hkept, (holds_setCgo hmentions kept on).symm⟩

/-- On a platform that supports the setting of cgo, a context is tried in which the constraint has
the value that it has with this setting. -/
theorem exists_moves (s : Context) {os arch : String} {on : Bool}
    (hon : on = true → p.targets.supportsCgo os arch = true) :
    ∃ c, p.Moves s os arch c ∧ p.holds c = p.holds { s with os, arch, cgo := on } := by
  have hflip : p.mentionsCgo = true → on ≠ (p.retarget s os arch).cgo →
      p.Moves s os arch { p.retarget s os arch with cgo := !(p.retarget s os arch).cgo } := by
    refine fun hmentions hcgo => .flipped hmentions ?_
    cases on with
    | true => exact hon rfl
    | false =>
      -- The context that keeps the setting has cgo enabled, which the platform then supports.
      rw [ne_comm, ne_eq, Bool.not_eq_false, retarget, Bool.and_eq_true] at hcgo
      exact hcgo.2
  have hkept : p.Moves s os arch (p.retarget s os arch) := .kept
  obtain ⟨c, hm, heq⟩ := exists_of_flip (Q := p.Moves s os arch) hkept hflip
  exact ⟨c, hm, heq⟩

end GoBuild.Problem
