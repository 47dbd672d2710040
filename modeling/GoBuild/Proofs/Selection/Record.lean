import GoBuild.Proofs.Except
import GoBuild.Selection

/-!
# The tags on record

What a check has on record when it is done are exactly the tags of what it judges: those of an expression
(`Context.judge_eq`), those that a file name demands (`Context.nameCheck_eq`) and those of the directives
of a header that can be read (`Context.checkHeader_eq`). No answer keeps a later question from being asked.
-/

namespace GoBuild

/-! ### Records -/

/-- The record with more tags put on it. -/
def TagSet.insertAll (seen : TagSet) (tags : List String) : TagSet := tags.foldl TagSet.insert seen

namespace TagSet

variable {seen : TagSet} {t : String}

theorem insertAll_append (seen : TagSet) (tags more : List String) :
    seen.insertAll (tags ++ more) = (seen.insertAll tags).insertAll more :=
  List.foldl_append

theorem mem_insertAll {tags : List String} : t ∈ seen.insertAll tags ↔ t ∈ seen ∨ t ∈ tags := by
  induction tags generalizing seen with
  | nil => simp [insertAll]
  | cons first rest ih =>
    rw [insertAll, List.foldl_cons, ← insertAll, ih, mem_insert, List.mem_cons, or_comm (a := t = first),
      or_assoc]

theorem insertAll_empty (tags : List String) : empty.insertAll tags = ofList tags :=
  ext fun t => by simp [mem_insertAll]

end TagSet

/-- The questions have the answer and put the tags on record, whatever is there already. -/
def Records (questions : StateM TagSet Bool) (value : Bool) (tags : List String) : Prop :=
  ∀ seen, questions.run seen = (value, seen.insertAll tags)

theorem Records.ofRecord_eq {questions : StateM TagSet Bool} {value : Bool} {tags : List String}
    (h : Records questions value tags) : Verdict.ofRecord questions = ⟨value, .ofList tags⟩ := by
  rw [Verdict.ofRecord, h, TagSet.insertAll_empty]

/-- One question after the other records the tags of both. -/
theorem Records.bind {first : StateM TagSet Bool} {value value' : Bool} {tags tags' : List String}
    (h : Records first value tags) (next : Bool → StateM TagSet Bool)
    (h' : Records (next value) value' tags') : Records (first >>= next) value' (tags ++ tags') := by
  intro seen
  rw [StateT.run_bind, h seen, TagSet.insertAll_append]
  exact h' _

theorem Records.pure (value : Bool) : Records (pure value) value [] := fun _ => rfl

/-- A question whose answer is then changed. -/
theorem Records.map {questions : StateM TagSet Bool} {value : Bool} {tags : List String}
    (h : Records questions value tags) (f : Bool → Bool) :
    Records (do return f (← questions)) (f value) tags := by
  have hbind := h.bind (fun answer => return f answer) (Records.pure (f value))
  rwa [List.append_nil] at hbind

theorem records_askAll {α : Type} {ask : α → StateM TagSet Bool} {value : α → Bool}
    {tags : α → List String} (h : ∀ x, Records (ask x) (value x) (tags x)) (xs : List α) :
    Records (askAll ask xs) (xs.all value) (xs.flatMap tags) := by
  suffices hfold : ∀ all, Records (xs.foldlM (fun all x => do return all && (← ask x)) all)
      (all && xs.all value) (xs.flatMap tags) from hfold true
  induction xs with
  | nil => exact fun all => by simpa using Records.pure all
  | cons x xs ih =>
    intro all
    rw [List.foldlM_cons, List.all_cons, List.flatMap_cons, ← Bool.and_assoc]
    exact ((h x).map (all && ·)).bind _ (ih (all && value x))

/-! ### Checks -/

namespace Context

theorem records_ask (c : Context) (t : String) : Records (c.ask t) (c.satisfies t) [t] := fun _ => rfl

/-- An expression records its tags, those too that cannot change its value any more. -/
theorem records_evalM (c : Context) (x : Expr) : Records (x.evalM c.ask) (c.holds x) x.atoms := by
  induction x with
  | tag name => exact c.records_ask name
  | not x ih => exact ih.map Bool.not
  | and x y ihx ihy =>
    rw [Expr.atoms_and]
    exact ihx.bind (fun left => do return left && (← y.evalM c.ask)) (ihy.map (c.holds x && ·))
  | or x y ihx ihy =>
    rw [Expr.atoms_or]
    exact ihx.bind (fun left => do return left || (← y.evalM c.ask)) (ihy.map (c.holds x || ·))

theorem judge_eq (c : Context) (x : Expr) : c.judge x = ⟨c.holds x, x.tags⟩ :=
  (c.records_evalM x).ofRecord_eq

theorem nameCheck_eq (c : Context) (path : String) : c.nameCheck path =
    ⟨(Source.Mandate.ofPath path).tags.all c.satisfies, .ofList (Source.Mandate.ofPath path).tags⟩ := by
  have h := (records_askAll c.records_ask (Source.Mandate.ofPath path).tags).ofRecord_eq
  rwa [List.flatMap_singleton'] at h

/-- The check of a header records the tags of its `//go:build` line, or those of all `// +build` lines
that can be read. -/
theorem checkHeader_eq (c : Context) (h : Source.Header) : c.checkHeader h =
    match h.goBuild with
    | some line => (Directive.parseLine line).map fun x => ⟨⟨c.holds x, x.tags⟩, h.binaryOnly⟩
    | none =>
      .ok ⟨⟨h.readable.all c.holds, .ofList (h.readable.flatMap Expr.atoms)⟩, h.binaryOnly⟩ := by
  unfold checkHeader
  cases h.goBuild with
  | some line =>
    simp only [judge_eq]
    cases Directive.parseLine line <;> rfl
  | none => rw [(records_askAll c.records_evalM h.readable).ofRecord_eq]

end Context

end GoBuild
