import GoBuild.Proofs.Search.Tries

/-!
# Runs of the search

A run ends at the first step that finds a context or fails. What it finds was found by one of its
steps (`Problem.exists_run_of_runAll`), and a run without a match has had none in any step
(`Problem.run_eq_none_of_runAll`). Only the two gates fail, and the other steps stand before them
(`Step.toggles`) or after them (`Step.moves`).
-/

namespace GoBuild

/-- The steps before the gates. -/
def Step.toggles : List Step := [.direct, .experiments, .singleTag, .allTags]

/-- The steps after the gates. -/
def Step.moves : List Step := [.cgo .base, .platform .base, .cgo .adjusted, .platform .adjusted]

theorem Step.order_filter (config : Config) :
    order.filter config.allows =
      toggles.filter config.allows ++
        .releaseGate :: .compilerGate :: moves.filter config.allows := by
  have horder : order = toggles ++ .releaseGate :: .compilerGate :: moves := rfl
  rw [horder, List.filter_append]
  rfl

theorem Step.not_gate_of_mem_toggles :
    ∀ step ∈ toggles, step ≠ releaseGate ∧ step ≠ compilerGate := by decide

theorem Step.not_gate_of_mem_moves :
    ∀ step ∈ moves, step ≠ releaseGate ∧ step ≠ compilerGate := by decide

namespace Problem

variable {p : Problem} {c : Context} {steps : List Step} {fault : MatchFault}

theorem exists_run_of_runAll (h : p.runAll steps = .ok c) :
    ∃ step ∈ steps, p.run step = .ok (some c) := by
  induction steps with
  | nil => cases h
  | cons step rest ih =>
    rw [runAll] at h
    split at h
    · cases h
    · rename_i found hrun
      cases h
      exact ⟨step, List.mem_cons_self, hrun⟩
    · obtain ⟨later, hmem, hrun⟩ := ih h
      exact ⟨later, List.mem_cons_of_mem _ hmem, hrun⟩

/-- The release rules the file out exactly if the constraint is false by the release tags alone. -/
theorem passRelease_eq_error_iff : p.passRelease = .error fault ↔
    p.expr.partialEval p.releaseValue = some false ∧ .impossibleVersion p.blamedRelease = fault := by
  unfold passRelease
  split
  · rename_i hfalse
    simp [hfalse]
  · rename_i hopen
    simp [hopen]

/-- If the compiler rules the file out, then the constraint is false by the compilers alone. -/
theorem partialEval_of_passCompiler (h : p.passCompiler = .error fault) :
    p.expr.partialEval p.compilerValue = some false ∧ fault ≠ .noMatch := by
  unfold passCompiler at h
  split at h
  · cases h
  · split at h
    · rename_i hfalse
      refine ⟨hfalse, ?_⟩
      split at h <;> cases h <;> simp
    · cases h

/-- No step says that nothing matches. -/
theorem run_ne_noMatch (p : Problem) (step : Step) : p.run step ≠ .error .noMatch := by
  intro h
  cases step with
  | releaseGate =>
    have hfault := passRelease_eq_error_iff.1 (Except.map_eq_error_iff.1 h)
    cases hfault.2
  | compilerGate =>
    have hfault := partialEval_of_passCompiler (Except.map_eq_error_iff.1 h)
    exact hfault.2 rfl
  | _ => cases h

theorem run_eq_none_of_runAll (h : p.runAll steps = .error .noMatch) :
    ∀ step ∈ steps, p.run step = .ok none := by
  induction steps with
  | nil => exact fun step hmem => absurd hmem List.not_mem_nil
  | cons step rest ih =>
    rw [runAll] at h
    split at h
    · rename_i fault hrun
      cases h
      exact absurd hrun (p.run_ne_noMatch step)
    · cases h
    · rename_i hrun
      exact List.forall_mem_cons.2 ⟨hrun, ih h⟩

/-- Steps that find nothing are passed over. -/
theorem runAll_append {rest : List Step} (h : ∀ step ∈ steps, p.run step = .ok none) :
    p.runAll (steps ++ rest) = p.runAll rest := by
  induction steps with
  | nil => rfl
  | cons step steps ih =>
    obtain ⟨hstep, hsteps⟩ := List.forall_mem_cons.1 h
    rw [List.cons_append, runAll, hstep]
    exact ih hsteps

/-- Only the gates fail. -/
theorem exists_run_eq_ok {step : Step} (hrelease : step ≠ .releaseGate)
    (hcompiler : step ≠ .compilerGate) : ∃ found, p.run step = .ok found := by
  cases step with
  | releaseGate => exact absurd rfl hrelease
  | compilerGate => exact absurd rfl hcompiler
  | _ => exact ⟨_, rfl⟩

/-- If one of the steps before a gate finds a context, the search does not come to the gate. -/
theorem exists_runAll_append_eq_ok {rest : List Step}
    (hsteps : ∀ step ∈ steps, step ≠ .releaseGate ∧ step ≠ .compilerGate) {step : Step}
    (hmem : step ∈ steps) (hrun : p.run step = .ok (some c)) :
    ∃ found, p.runAll (steps ++ rest) = .ok found := by
  induction steps with
  | nil => cases hmem
  | cons first steps ih =>
    obtain ⟨⟨hrelease, hcompiler⟩, hsteps⟩ := List.forall_mem_cons.1 hsteps
    obtain ⟨found, hfirst⟩ := exists_run_eq_ok (p := p) hrelease hcompiler
    rw [List.cons_append, runAll, hfirst]
    cases found with
    | some found => exact ⟨found, rfl⟩
    | none =>
      rcases List.mem_cons.1 hmem with rfl | hmem
      · rw [hfirst] at hrun
        cases hrun
      · exact ih hsteps hmem

/-- What the first steps find is found. -/
theorem runAll_append_of_eq_ok {rest : List Step} (h : p.runAll steps = .ok c) :
    p.runAll (steps ++ rest) = .ok c := by
  induction steps with
  | nil => cases h
  | cons step steps ih =>
    rw [runAll] at h
    rw [List.cons_append, runAll]
    cases hrun : p.run step with
    | error fault =>
      rw [hrun] at h
      cases h
    | ok found =>
      rw [hrun] at h
      cases found with
      | some found => exact h
      | none => exact ih h

/-- A failure is not due to the steps that are no gates. -/
theorem runAll_of_runAll_append {rest : List Step}
    (hsteps : ∀ step ∈ steps, step ≠ .releaseGate ∧ step ≠ .compilerGate)
    (h : p.runAll (steps ++ rest) = .error fault) : p.runAll rest = .error fault := by
  induction steps with
  | nil => exact h
  | cons step steps ih =>
    obtain ⟨⟨hrelease, hcompiler⟩, hsteps⟩ := List.forall_mem_cons.1 hsteps
    obtain ⟨found, hfound⟩ := exists_run_eq_ok (p := p) hrelease hcompiler
    rw [List.cons_append, runAll, hfound] at h
    cases found with
    | some c => cases h
    | none => exact ih hsteps h

/-! ### The gates -/

/-- The two gates, one after the other. -/
def gates (p : Problem) : Except MatchFault Unit := do
  p.passRelease
  p.passCompiler

theorem runAll_gates (p : Problem) (rest : List Step) :
    p.runAll (.releaseGate :: .compilerGate :: rest) = p.gates >>= fun _ => p.runAll rest := by
  unfold gates
  simp only [runAll, run]
  cases p.passRelease with
  | error fault => rfl
  | ok =>
    cases p.passCompiler with
    | error fault => rfl
    | ok => rfl

/-- If the gates fail and the steps before them find nothing, the search fails as the gates do. -/
theorem runAll_order_of_gates {config : Config} (hgates : p.gates = .error fault)
    (h : ∀ step ∈ Step.toggles, p.run step = .ok none) :
    p.runAll (Step.order.filter config.allows) = .error fault := by
  rw [Step.order_filter, runAll_append fun step hmem => h step (List.mem_filter.1 hmem).1,
    runAll_gates, hgates]
  rfl

/-- A search that fails for another reason than that nothing matches fails at the gates. -/
theorem gates_of_runAll_order {config : Config} (hfault : fault ≠ .noMatch)
    (h : p.runAll (Step.order.filter config.allows) = .error fault) : p.gates = .error fault := by
  have htoggles : ∀ step ∈ Step.toggles.filter config.allows, step ≠ .releaseGate ∧
      step ≠ .compilerGate := fun step hmem =>
    Step.not_gate_of_mem_toggles step (List.mem_filter.1 hmem).1
  have hmoves : ∀ step ∈ Step.moves.filter config.allows, step ≠ .releaseGate ∧
      step ≠ .compilerGate := fun step hmem =>
    Step.not_gate_of_mem_moves step (List.mem_filter.1 hmem).1
  rw [Step.order_filter] at h
  have hrest := runAll_of_runAll_append htoggles h
  rw [runAll_gates] at hrest
  cases hgates : p.gates with
  | error other =>
    rw [hgates] at hrest
    exact congrArg Except.error (Except.error.inj hrest)
  | ok =>
    rw [hgates, ← List.append_nil (Step.moves.filter config.allows)] at hrest
    have hnil := runAll_of_runAll_append hmoves hrest
    exact absurd (Except.error.inj hnil).symm hfault

end Problem

/-! ### Finding a context -/

namespace Matcher

variable {m : Matcher} {start c : Context} {path : String} {content : List UInt8} {x : Expr}

@[simp] theorem problem_targets : (m.problem start path x).targets = m.targets := rfl

@[simp] theorem problem_expr : (m.problem start path x).expr = x := rfl

@[simp] theorem problem_mandate : (m.problem start path x).mandate = .ofPath path := by rw [problem]

@[simp] theorem problem_base : (m.problem start path x).base = m.baseFor start path := rfl

theorem find_of_constraintOf (hx : constraintOf content = .ok (some x)) :
    m.find start path content = ((m.problem start path x).runAll
      (Step.order.filter m.config.allows)).mapError (⟨path, ·⟩) := by
  rw [find, hx]

/-- A context found for a file with a constraint was tried by a step that the configuration allows,
and the constraint holds in it. -/
theorem exists_tries_of_find (hx : constraintOf content = .ok (some x))
    (h : m.find start path content = .ok c) :
    ∃ step, m.config.allows step = true ∧ (m.problem start path x).Tries step c ∧
      c.holds x = true := by
  rw [find_of_constraintOf hx, Except.mapError_eq_ok_iff] at h
  obtain ⟨step, hmem, hrun⟩ := Problem.exists_run_of_runAll h
  obtain ⟨htries, hholds⟩ := Problem.tries_of_run hrun
  exact ⟨step, (List.mem_filter.1 hmem).2, htries, hholds⟩

/-- A context found for a file is the base context, if the file has no constraint, or was tried by a
step that the configuration allows, and the constraint holds in it. -/
theorem cases_of_find (h : m.find start path content = .ok c) :
    (constraintOf content = .ok none ∧ c = m.baseFor start path) ∨
      ∃ x step, constraintOf content = .ok (some x) ∧ m.config.allows step = true ∧
        (m.problem start path x).Tries step c ∧ c.holds x = true := by
  cases hcon : constraintOf content with
  | error e =>
    rw [find, hcon] at h
    cases h
  | ok x? =>
    cases x? with
    | none =>
      rw [find, hcon] at h
      exact Or.inl ⟨rfl, (Except.ok.inj h).symm⟩
    | some x =>
      obtain ⟨step, hallows, htries, hholds⟩ := exists_tries_of_find hcon h
      exact Or.inr ⟨x, step, rfl, hallows, htries, hholds⟩

/-- The constraint of the file, if there is one, holds in a context found for it. -/
theorem holds_of_find (h : m.find start path content = .ok c) :
    ∃ x?, constraintOf content = .ok x? ∧ x?.elim true c.holds = true := by
  rcases cases_of_find h with ⟨hcon, -⟩ | ⟨x, -, hcon, -, -, hholds⟩
  · exact ⟨none, hcon, rfl⟩
  · exact ⟨some x, hcon, hholds⟩

/-- A context found is on the platform of the base context, or on one to which the search goes from
there. -/
theorem platform_cases_of_find (h : m.find start path content = .ok c) :
    (c.os = (m.baseFor start path).os ∧ c.arch = (m.baseFor start path).arch) ∨
      ∃ x, (m.problem start path x).Visits (m.baseFor start path) c.os c.arch := by
  rcases cases_of_find h with ⟨-, rfl⟩ | ⟨x, _, -, -, htries, -⟩
  · exact Or.inl ⟨rfl, rfl⟩
  · exact htries.platform_cases.imp_right fun hv => ⟨x, hv⟩

end Matcher

end GoBuild
