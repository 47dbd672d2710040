import Mathlib.Logic.Function.Basic
import GoBuild.Proofs.Expr.Polarity

/-!
# The direction in which a tag helps

An occurrence of a tag counts in the direction that the number of negations around it gives: positive if
the number is even, negative if it is odd (`Expr.occurrences_eq`). If all the occurrences of a tag count
in one direction (`Expr.AllCount`), then `Expr.lookup` names it, and the value that it asks for is the one
that helps: a true expression stays true when such tags, one or many, move to the values that
`Expr.lookup` names (`Expr.lookup_helps`).
-/

namespace GoBuild

/-- The direction of an occurrence with `n` negations around it. -/
def Polarity.ofNegations (n : Nat) : Polarity := if n % 2 = 0 then .positive else .negative

theorem Polarity.ofNegations_succ (n : Nat) : ofNegations (n + 1) = (ofNegations n).flip := by
  unfold ofNegations
  by_cases h : n % 2 = 0
  · rw [if_pos h, if_neg (by omega)]
    rfl
  · rw [if_neg h, if_pos (by omega)]
    rfl

namespace Expr

/-- The occurrences of tags from left to right, each with the number of negations around it. -/
def negations : Expr → List (String × Nat)
  | tag name => [(name, 0)]
  | not x => x.negations.map fun o => (o.1, o.2 + 1)
  | and x y => x.negations ++ y.negations
  | or x y => x.negations ++ y.negations

/-- All the occurrences of the tag count in the direction `d`. -/
def AllCount (x : Expr) (t : String) (d : Polarity) : Prop :=
  ∀ o ∈ x.negations, o.1 = t → Polarity.ofNegations o.2 = d

instance (x : Expr) (t : String) (d : Polarity) : Decidable (x.AllCount t d) :=
  inferInstanceAs (Decidable (∀ o ∈ x.negations, o.1 = t → Polarity.ofNegations o.2 = d))

/-- The tags of `s` have moved from their values in `v` to those that `lookup` names. -/
structure Moved (x : Expr) (s : String → Prop) (v w : String → Bool) : Prop where
  named : ∀ t, s t → ∀ d, x.lookup t = some d → w t = d.isPositive
  other : ∀ t, ¬ s t → w t = v t

variable {x : Expr} {t : String} {d : Polarity}

/-- The direction of an occurrence is the parity of the negations around it. -/
theorem occurrences_eq (x : Expr) :
    x.occurrences = x.negations.map fun o => (o.1, Polarity.ofNegations o.2) := by
  induction x with
  | tag name => rfl
  | not x ih =>
    rw [occurrences, negations, ih, List.map_map, List.map_map]
    exact List.map_congr_left fun o _ => by
      simp only [Function.comp_apply, Polarity.ofNegations_succ]
  | and x y ihx ihy | or x y ihx ihy =>
    rw [occurrences, negations, ihx, ihy, List.map_append]

theorem mem_occurrences_iff :
    (t, d) ∈ x.occurrences ↔ ∃ n, (t, n) ∈ x.negations ∧ Polarity.ofNegations n = d := by
  rw [occurrences_eq, List.mem_map]
  constructor
  · rintro ⟨⟨t', n⟩, hmem, h⟩
    obtain ⟨rfl, rfl⟩ := Prod.mk.injEq .. ▸ h
    exact ⟨n, hmem, rfl⟩
  · rintro ⟨n, hmem, rfl⟩
    exact ⟨(t, n), hmem, rfl⟩

theorem AllCount.eq_of_mem {e : Polarity} (h : x.AllCount t d) (hmem : (t, e) ∈ x.occurrences) :
    e = d := by
  obtain ⟨n, hn, rfl⟩ := mem_occurrences_iff.1 hmem
  exact h (t, n) hn rfl

/-- If all the occurrences of a mentioned tag count in one direction, `lookup` names it. -/
theorem AllCount.lookup_eq (h : x.AllCount t d) (ht : t ∈ x.atoms) : x.lookup t = some d := by
  obtain ⟨e, he⟩ := Option.isSome_iff_exists.1 (isSome_lookup.2 ht)
  rw [he, h.eq_of_mem (mem_occurrences_of_lookup he)]

/-- A true expression stays true when tags that count in one direction each move to the values that
`lookup` names. -/
theorem Moved.eval {s : String → Prop} {v w : String → Bool} (hmoved : x.Moved s v w)
    (hs : ∀ t, s t → ∃ d, x.AllCount t d) (hv : x.eval v = true) : x.eval w = true := by
  refine eval_of_favours (fun t e hmem => ?_) hv
  by_cases ht : s t
  · obtain ⟨d, hd⟩ := hs t ht
    have hlookup : x.lookup t = some e :=
      hd.eq_of_mem hmem ▸ hd.lookup_eq (mem_atoms_of_mem_occurrences hmem)
    rw [hmoved.named t ht e hlookup]
    exact e.favours_isPositive (v t)
  · rw [hmoved.other t ht]
    exact e.favours_refl (v t)

/-- One tag moves from one value to the value that `lookup` names. -/
theorem AllCount.moved_update (h : x.AllCount t d) (v : String → Bool) (b : Bool) :
    x.Moved (· = t) (Function.update v t b) (Function.update v t d.isPositive) where
  named u hu e he := by
    subst hu
    rw [Function.update_self, h.eq_of_mem (mem_occurrences_of_lookup he)]
  other u hu := by rw [Function.update_of_ne hu, Function.update_of_ne hu]

/-- **The direction that `lookup` gives is the one in which a tag helps.** If all the occurrences of a
mentioned tag count in one direction, `lookup` names it, and an expression that is true with the tag at
the other value is true with the tag at the value asked for. And if all the occurrences of each tag of
a set count in one direction, a true expression stays true when all these tags move to the values that
`lookup` names. -/
theorem lookup_helps (x : Expr) :
    (∀ t d, t ∈ x.atoms → x.AllCount t d → x.lookup t = some d ∧
      ∀ v, x.eval (Function.update v t !d.isPositive) = true →
        x.eval (Function.update v t d.isPositive) = true) ∧
    ∀ (s : String → Prop) (v w : String → Bool), (∀ t, s t → ∃ d, x.AllCount t d) →
      x.Moved s v w → x.eval v = true → x.eval w = true := by
  refine ⟨fun t d ht hd => ⟨hd.lookup_eq ht, fun v hv => ?_⟩, fun s v w hs hmoved hv =>
    hmoved.eval hs hv⟩
  refine (hd.moved_update v !d.isPositive).eval (fun u hu => ?_) hv
  exact ⟨d, hu ▸ hd⟩

/-- In `!(cgo && !(linux || race)) && (race || !(cgo && !linux))` the tag `linux` stands under two
negations and `cgo` under one. With `race` the expression is true also when `linux` is cleared and `cgo`
set, and it stays true when both move. -/
theorem lookup_helps_linux :
    let x : Expr := .and
      (.not (.and (.tag "cgo") (.not (.or (.tag "linux") (.tag "race")))))
      (.or (.tag "race") (.not (.and (.tag "cgo") (.not (.tag "linux")))))
    let s : String → Prop := fun t => t = "linux" ∨ t = "cgo"
    "linux" ∈ x.atoms ∧ x.AllCount "linux" .positive ∧ x.AllCount "cgo" .negative ∧
      x.lookup "linux" = some .positive ∧
      x.Moved s (· ∈ ["cgo", "race"]) (· ∈ ["linux", "race"]) ∧
      x.eval (· ∈ ["cgo", "race"]) = true ∧ x.eval (· ∈ ["linux", "race"]) = true := by
  intro x s
  have hlinux : x.AllCount "linux" .positive := by decide
  have hcgo : x.AllCount "cgo" .negative := by decide
  have hall : ∀ t, s t → ∃ d, x.AllCount t d := by
    rintro t (rfl | rfl)
    · exact ⟨_, hlinux⟩
    · exact ⟨_, hcgo⟩
  have hmoved : x.Moved s (· ∈ ["cgo", "race"]) (· ∈ ["linux", "race"]) :=
    { named := by
        rintro t (rfl | rfl) d hd
        · obtain rfl : d = .positive := Option.some.inj (hd.symm.trans (by decide))
          decide
        · obtain rfl : d = .negative := Option.some.inj (hd.symm.trans (by decide))
          decide
      other := fun t ht => by simp [not_or.1 ht] }
  have hbefore : x.eval (· ∈ ["cgo", "race"]) = true := by decide
  exact ⟨by decide, hlinux, hcgo, ((lookup_helps x).1 "linux" .positive (by decide) hlinux).1, hmoved,
    hbefore, (lookup_helps x).2 _ _ _ hall hmoved hbefore⟩

end Expr

end GoBuild
