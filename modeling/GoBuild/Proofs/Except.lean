/-!
# Results that may be errors

When a computation that may fail succeeds or fails: one after another (`Except.bind_eq_ok_iff`), with
its result or its error changed (`Except.map_eq_ok_iff`, `Except.mapError_eq_error_iff`), and over a
list (`Except.mapM_eq_ok_iff`, `Except.exists_of_mapM_eq_error`).
-/

namespace Except

variable {ε α β : Type}

instance decidableEq [DecidableEq ε] [DecidableEq α] : DecidableEq (Except ε α)
  | .ok a, .ok b => decidable_of_iff (a = b) ⟨congrArg ok, ok.inj⟩
  | .error e, .error f => decidable_of_iff (e = f) ⟨congrArg error, error.inj⟩
  | .ok _, .error _ => isFalse nofun
  | .error _, .ok _ => isFalse nofun

@[simp] theorem ok_bind (a : α) (f : α → Except ε β) : (ok a : Except ε α) >>= f = f a := rfl

@[simp] theorem error_bind (e : ε) (f : α → Except ε β) :
    (error e : Except ε α) >>= f = .error e := rfl

theorem bind_eq_ok_iff {x : Except ε α} {f : α → Except ε β} {b : β} :
    x >>= f = .ok b ↔ ∃ a, x = .ok a ∧ f a = .ok b := by
  cases x <;> simp [bind, Except.bind]

theorem map_eq_ok_iff {x : Except ε α} {f : α → β} {b : β} :
    x.map f = .ok b ↔ ∃ a, x = .ok a ∧ f a = b := by
  cases x <;> simp [Except.map]

theorem map_eq_error_iff {x : Except ε α} {f : α → β} {e : ε} :
    x.map f = .error e ↔ x = .error e := by
  cases x <;> simp [Except.map]

theorem toOption_eq_some_iff {x : Except ε α} {a : α} : x.toOption = some a ↔ x = .ok a := by
  cases x <;> simp [Except.toOption]

@[simp] theorem mapError_ok {ε' : Type} (f : ε → ε') (a : α) :
    (ok a : Except ε α).mapError f = .ok a := rfl

@[simp] theorem mapError_error {ε' : Type} (f : ε → ε') (e : ε) :
    (error e : Except ε α).mapError f = .error (f e) := rfl

theorem mapError_eq_ok_iff {ε' : Type} {x : Except ε α} {f : ε → ε'} {a : α} :
    x.mapError f = .ok a ↔ x = .ok a := by
  cases x <;> simp

theorem mapError_eq_error_iff {ε' : Type} {x : Except ε α} {f : ε → ε'} {e : ε'} :
    x.mapError f = .error e ↔ ∃ e₀, x = .error e₀ ∧ f e₀ = e := by
  cases x <;> simp

/-- A computation succeeds over a list if it succeeds on every element. -/
theorem mapM_eq_ok_iff {f : α → Except ε β} {as : List α} {bs : List β} :
    as.mapM f = .ok bs ↔ as.map f = bs.map .ok := by
  induction as generalizing bs with
  | nil => cases bs <;> simp [pure, Except.pure]
  | cons a as ih =>
    simp only [List.mapM_cons, bind_eq_ok_iff, ih]
    cases bs with
    | nil => simp [pure, Except.pure]
    | cons b bs => simp [pure, Except.pure]

/-- A computation over a list fails as it does on the first element on which it fails. -/
theorem mapM_eq_error_iff_exists_append {f : α → Except ε β} {as : List α} {e : ε} :
    as.mapM f = .error e ↔ ∃ before a after, as = before ++ a :: after ∧
      (∀ x ∈ before, ∃ b, f x = .ok b) ∧ f a = .error e := by
  constructor
  · intro h
    induction as with
    | nil => cases h
    | cons a as ih =>
      rw [List.mapM_cons] at h
      cases ha : f a with
      | error e' =>
        rw [ha, error_bind] at h
        cases h
        exact ⟨[], a, as, rfl, fun _ hx => absurd hx List.not_mem_nil, ha⟩
      | ok b =>
        rw [ha, ok_bind] at h
        cases htail : as.mapM f with
        | error e' =>
          rw [htail, error_bind] at h
          cases h
          obtain ⟨before, a', after, rfl, hbefore, he⟩ := ih htail
          exact ⟨a :: before, a', after, rfl, List.forall_mem_cons.2 ⟨⟨b, ha⟩, hbefore⟩, he⟩
        | ok bs =>
          rw [htail, ok_bind] at h
          cases h
  · rintro ⟨before, a, after, rfl, hbefore, he⟩
    induction before with
    | nil => rw [List.nil_append, List.mapM_cons, he, error_bind]
    | cons x before ih =>
      obtain ⟨⟨b, hb⟩, hbefore⟩ := List.forall_mem_cons.1 hbefore
      rw [List.cons_append, List.mapM_cons, hb, ok_bind, ih hbefore, error_bind]

/-- A computation that fails over a list fails on some element in the same way. -/
theorem exists_of_mapM_eq_error {f : α → Except ε β} {as : List α} {e : ε}
    (h : as.mapM f = .error e) : ∃ a ∈ as, f a = .error e := by
  obtain ⟨before, a, after, rfl, -, he⟩ := mapM_eq_error_iff_exists_append.1 h
  exact ⟨a, by simp, he⟩

theorem exists_of_mem_of_mapM {f : α → Except ε β} {as : List α} {bs : List β}
    (h : as.mapM f = .ok bs) {a : α} (ha : a ∈ as) : ∃ b ∈ bs, f a = .ok b := by
  have hmem : f a ∈ bs.map .ok := mapM_eq_ok_iff.1 h ▸ List.mem_map_of_mem ha
  obtain ⟨b, hb, heq⟩ := List.mem_map.1 hmem
  exact ⟨b, hb, heq.symm⟩

theorem forall_mem_of_mapM {f : α → Except ε β} {as : List α} {bs : List β}
    (h : as.mapM f = .ok bs) {P : β → Prop} :
    (∀ b ∈ bs, P b) ↔ ∀ a ∈ as, ∃ b, f a = .ok b ∧ P b := by
  have hmap : as.map f = bs.map .ok := mapM_eq_ok_iff.1 h
  calc (∀ b ∈ bs, P b)
      ↔ ∀ r ∈ bs.map (ok : β → Except ε β), ∃ b, r = .ok b ∧ P b := by simp
    _ ↔ ∀ r ∈ as.map f, ∃ b, r = .ok b ∧ P b := by rw [hmap]
    _ ↔ ∀ a ∈ as, ∃ b, f a = .ok b ∧ P b := List.forall_mem_map

/-- If there is but one way to fail, a computation fails over a list if it fails on some element. -/
theorem mapM_eq_error_iff {f : α → Except ε β} {as : List α} {e : ε}
    (honly : ∀ a ∈ as, ∀ e', f a = .error e' → e' = e) :
    as.mapM f = .error e ↔ ∃ a ∈ as, f a = .error e := by
  refine ⟨exists_of_mapM_eq_error, ?_⟩
  rintro ⟨a, ha, he⟩
  cases hread : as.mapM f with
  | ok bs =>
    obtain ⟨b, -, hb⟩ := exists_of_mem_of_mapM hread ha
    rw [he] at hb
    cases hb
  | error e' =>
    obtain ⟨a', ha', he'⟩ := exists_of_mapM_eq_error hread
    rw [honly a' ha' e' he']

/-- What is true of the errors of each step is true of the error of a run. -/
theorem of_foldlM_eq_error {f : β → α → Except ε β} {P : ε → Prop}
    (hstep : ∀ b a e, f b a = .error e → P e) {as : List α} {b : β} {e : ε}
    (h : as.foldlM f b = .error e) : P e := by
  induction as generalizing b with
  | nil => cases h
  | cons a as ih =>
    rw [List.foldlM_cons] at h
    cases ha : f b a with
    | error e' =>
      rw [ha, error_bind] at h
      cases h
      exact hstep b a e ha
    | ok b' =>
      rw [ha, ok_bind] at h
      exact ih h

/-- If a computation succeeds on every element, those on which it succeeds are all. -/
theorem filterMap_toOption_of_mapM {f : α → Except ε β} {as : List α} {bs : List β}
    (h : as.mapM f = .ok bs) : as.filterMap (fun a => (f a).toOption) = bs := by
  have hmap : as.map f = bs.map .ok := mapM_eq_ok_iff.1 h
  calc as.filterMap (fun a => (f a).toOption)
      = (as.map f).filterMap Except.toOption := by rw [List.filterMap_map]; rfl
    _ = (bs.map .ok).filterMap Except.toOption := by rw [hmap]
    _ = bs := by rw [List.filterMap_map]; exact List.filterMap_some

end Except
