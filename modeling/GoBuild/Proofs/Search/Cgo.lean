import Mathlib.Logic.Relation
import GoBuild.Proofs.Search.Run

/-!
# Where cgo is enabled

A search changes a context move by move (`Context.Move`): it places the context for the file name,
sets tags, changes cgo and goes to other platforms. No move enables cgo where the table does not
support it, so after any sequence of moves cgo is enabled only where it is supported, or on the
platform of the start if it was enabled there (`Context.Reaches.cgoSafe`). What a search finds is
reached by such a sequence (`Matcher.reaches_of_find`).
-/

namespace GoBuild

open Source (Mandate)

namespace Context

variable {t : Targets} {a b c d : Context}

/-- One change that a search makes to a context. -/
inductive Move (t : Targets) : Context → Context → Prop
  | place (m : Mandate) (c : Context) : Move t c (m.place t c)
  | setTags (c : Context) (toolTags buildTags : TagSet) : Move t c { c with toolTags, buildTags }
  | toggleCgo (c : Context) (hcan : c.cgo = true ∨ t.supportsCgo c.os c.arch = true) :
      Move t c { c with cgo := !c.cgo }
  | retarget (c : Context) (os arch : String) :
      Move t c { c with os, arch, cgo := c.cgo && t.supportsCgo os arch }

/-- The context `d` comes from `c` by moves, in any order and as often as one likes. -/
def Reaches (t : Targets) (c d : Context) : Prop := Relation.ReflTransGen (Move t) c d

/-- In `d` cgo is enabled only where it is supported, or as in `c` on the same platform. -/
def CgoSafe (t : Targets) (c d : Context) : Prop :=
  d.cgo = true →
    t.supportsCgo d.os d.arch = true ∨ (d.os = c.os ∧ d.arch = c.arch) ∧ c.cgo = true

theorem cgoSafe_refl (t : Targets) (c : Context) : CgoSafe t c c :=
  fun hcgo => Or.inr ⟨⟨rfl, rfl⟩, hcgo⟩

theorem CgoSafe.trans (hab : CgoSafe t a b) (hbc : CgoSafe t b c) : CgoSafe t a c := by
  intro hcgo
  rcases hbc hcgo with hsupported | ⟨⟨hos, harch⟩, hb⟩
  · exact Or.inl hsupported
  · rw [hos, harch]
    exact hab hb

theorem Move.cgoSafe (h : Move t c d) : CgoSafe t c d := by
  intro hcgo
  cases h with
  | place m =>
    simp only [Mandate.place, Mandate.moveTo, Bool.and_eq_true, Bool.or_eq_true,
      decide_eq_true_eq] at hcgo ⊢
    obtain ⟨hc, hsame | hsupported⟩ := hcgo
    · exact Or.inr ⟨hsame, hc⟩
    · exact Or.inl hsupported
  | setTags => exact Or.inr ⟨⟨rfl, rfl⟩, hcgo⟩
  | toggleCgo _ hcan =>
    -- It was off, so that only the table can have allowed the move.
    have hoff : c.cgo = false := by simpa using hcgo
    rw [hoff] at hcan
    exact Or.inl (hcan.resolve_left Bool.false_ne_true)
  | retarget =>
    rw [Bool.and_eq_true] at hcgo
    exact Or.inl hcgo.2

/-- No sequence of moves enables cgo where it is not supported. -/
theorem Reaches.cgoSafe (h : Reaches t c d) : CgoSafe t c d := by
  -- A later move may go back to the platform of the start: transitivity carries what is kept there.
  induction h with
  | refl => exact cgoSafe_refl t c
  | tail _ hmove ih => exact ih.trans hmove.cgoSafe

end Context

namespace Problem

open Context

variable {p : Problem} {s c : Context}

theorem reaches_of_seed {seed : Seed} (hs : p.seed? seed = some s) :
    p.base.Reaches p.targets s := by
  obtain ⟨toolTags, buildTags, rfl⟩ := seed?_eq_some hs
  exact .single (.setTags p.base toolTags buildTags)

/-- Every context tried is reached from the base context by moves. -/
theorem Tries.reaches {step : Step} (h : p.Tries step c) : p.base.Reaches p.targets c := by
  cases h with
  | direct => exact .refl
  | experiments =>
    rw [withExperiments_eq]
    exact .single (.setTags p.base _ _)
  | singleTag => exact .single (.setTags p.base _ _)
  | allTags =>
    rw [adjusted_eq]
    exact .single (.setTags p.base _ _)
  | cgo hs _ hcan => exact (reaches_of_seed hs).tail (.toggleCgo _ hcan)
  | @platform _ s _ os arch hs _ hm =>
    have hmoved : p.base.Reaches p.targets (p.retarget s os arch) :=
      (reaches_of_seed hs).tail (.retarget s os arch)
    cases hm with
    | kept => exact hmoved
    | flipped _ hsupported => exact hmoved.tail (.toggleCgo _ (Or.inr hsupported))

end Problem

namespace Matcher

variable {m : Matcher} {start c : Context} {path : String} {content : List UInt8} {x : Expr}

@[simp] theorem filled_cgo : (m.filled start).cgo = start.cgo := by
  unfold filled
  split <;> rfl

/-- What a search finds is reached from the filled start by moves, the first of which places it. -/
theorem reaches_of_find (h : m.find start path content = .ok c) :
    (m.filled start).Reaches m.targets c := by
  have hbase : (m.filled start).Reaches m.targets (m.baseFor start path) :=
    .single (.place (.ofPath path) (m.filled start))
  rcases cases_of_find h with ⟨-, rfl⟩ | ⟨x, _, -, -, htries, -⟩
  · exact hbase
  · exact hbase.trans htries.reaches

/-- In a context found, cgo is enabled only where the table supports it, or on the platform of the
filled start if it was enabled in the start; and no sequence of moves from there does otherwise. -/
theorem supportsCgo_of_find (h : m.find start path content = .ok c) :
    (c.cgo = true → m.targets.supportsCgo c.os c.arch = true ∨
      (c.os = (m.filled start).os ∧ c.arch = (m.filled start).arch) ∧ start.cgo = true) ∧
    ∀ d, (m.filled start).Reaches m.targets d → Context.CgoSafe m.targets (m.filled start) d := by
  have hsafe := (reaches_of_find h).cgoSafe
  rw [Context.CgoSafe, filled_cgo] at hsafe
  exact ⟨hsafe, fun d hreaches => hreaches.cgoSafe⟩

/-- The start has cgo enabled where it is not supported. The file name moves it to a platform with
cgo, and the search from there to another one. -/
theorem supportsCgo_of_find_linux_arm64 :
    let m : Matcher := ⟨.builtin, {}⟩
    let start : Context := { os := "js", arch := "wasm", cgo := true }
    let content := "//go:build cgo && arm64\n\npackage a\n".toUTF8.toList
    let c : Context := { os := "linux", arch := "arm64", compiler := "gc", cgo := true }
    m.targets.supportsCgo start.os start.arch = false ∧ m.find start "a_linux.go" content = .ok c ∧
      m.targets.supportsCgo c.os c.arch = true := by
  intro m start content c
  have hfind : m.find start "a_linux.go" content = .ok c := by decide +kernel
  have hmoved : ¬ (c.os = (m.filled start).os ∧ c.arch = (m.filled start).arch) := by decide
  refine ⟨by decide +kernel, hfind, ?_⟩
  exact ((supportsCgo_of_find hfind).1 rfl).resolve_right fun hkept => hmoved hkept.1

end Matcher

end GoBuild
