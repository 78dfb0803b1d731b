import Mathlib.Data.List.Forall2

/-!
# Work that may fail

Steps that may fail are done one after the other, and the first failure is the outcome. These
lemmas take such a sequence apart: into what each step gives when all succeed, and into the
steps before a failure when one does not.
-/

namespace DriverPolicy

variable {ε α β : Type}

/-- A step that succeeds hands its value on. -/
@[simp] theorem ok_bind (a : α) (f : α → Except ε β) : (Except.ok a >>= f) = f a := rfl

/-- A step that fails is the outcome. -/
@[simp] theorem error_bind (e : ε) (f : α → Except ε β) :
    ((Except.error e : Except ε α) >>= f) = .error e := rfl

/-- Returning a value succeeds with it. -/
@[simp] theorem pure_eq_ok (a : α) : (pure a : Except ε α) = .ok a := rfl

/-- The failure of a step that fails. -/
def failureOf : Except ε α → Option ε
  | .ok _ => none
  | .error e => some e

/-- Two steps succeed together when the first does and the second does on its value. -/
theorem bind_eq_ok_iff {x : Except ε α} {f : α → Except ε β} {b : β} :
    (x >>= f) = .ok b ↔ ∃ a, x = .ok a ∧ f a = .ok b := by
  cases x with
  | error e => simp
  | ok a => simp

/-- Two steps fail when the first does, or when it succeeds and the second fails. -/
theorem bind_eq_error_iff {x : Except ε α} {f : α → Except ε β} {e : ε} :
    (x >>= f) = .error e ↔ x = .error e ∨ ∃ a, x = .ok a ∧ f a = .error e := by
  cases x with
  | error e => simp
  | ok a => simp

/-- A step with its value mapped succeeds when the step does. -/
theorem map_eq_ok_iff {x : Except ε α} {f : α → β} {b : β} :
    x.map f = .ok b ↔ ∃ a, x = .ok a ∧ f a = b := by
  cases x <;> simp [Except.map]

/-- A step with its value mapped fails when the step does. -/
theorem map_eq_error_iff {x : Except ε α} {f : α → β} {e : ε} :
    x.map f = .error e ↔ x = .error e := by
  cases x <;> simp [Except.map]

/-- A step whose failure is stated in other words succeeds when the step does. -/
theorem mapError_eq_ok_iff {ε' : Type} {x : Except ε α} {f : ε → ε'} {a : α} :
    x.mapError f = .ok a ↔ x = .ok a := by
  cases x with
  | ok b =>
    change (Except.ok b : Except ε' α) = .ok a ↔ _
    simp only [Except.ok.injEq]
  | error e =>
    change (Except.error (f e) : Except ε' α) = .ok a ↔ _
    simp only [reduceCtorEq]

/-- A step whose failure is stated in other words fails when the step does. -/
theorem mapError_eq_error_iff {ε' : Type} {x : Except ε α} {f : ε → ε'} {e' : ε'} :
    x.mapError f = .error e' ↔ ∃ e, x = .error e ∧ f e = e' := by
  cases x with
  | ok b =>
    change (Except.ok b : Except ε' α) = .error e' ↔ _
    simp only [reduceCtorEq, false_and, exists_false]
  | error e =>
    change (Except.error (f e) : Except ε' α) = .error e' ↔ _
    simp only [Except.error.injEq, exists_eq_left']

/-- Work that fails in no other way than is said. -/
def FailsOnly (P : ε → Prop) (x : Except ε α) : Prop := ∀ e, x = .error e → P e

namespace FailsOnly

variable {P : ε → Prop}

/-- Success is no failure. -/
theorem ok (a : α) : FailsOnly P (.ok a) := fun _ h => nomatch h

/-- A failure that is said. -/
theorem error {e : ε} (h : P e) : FailsOnly P (.error e : Except ε α) := by
  rintro _ ⟨⟩
  exact h

/-- What is said may be said more loosely. -/
theorem mono {Q : ε → Prop} {x : Except ε α} (h : FailsOnly P x) (himp : ∀ e, P e → Q e) :
    FailsOnly Q x :=
  fun e he => himp e (h e he)

/-- Of two ways one is taken. -/
theorem ite {p : Prop} [Decidable p] {x y : Except ε α} (hx : FailsOnly P x)
    (hy : FailsOnly P y) : FailsOnly P (if p then x else y) := by
  split
  · exact hx
  · exact hy

/-- Two steps fail as one of them does. -/
theorem bind {x : Except ε α} {f : α → Except ε β} (hx : FailsOnly P x)
    (hf : ∀ a, FailsOnly P (f a)) : FailsOnly P (x >>= f) := by
  intro e h
  rcases bind_eq_error_iff.mp h with hfirst | ⟨a, -, hsecond⟩
  · exact hx e hfirst
  · exact hf a e hsecond

/-- A failure in other words is as is said if the words are. -/
theorem mapError {ε' : Type} {Q : ε' → Prop} {x : Except ε α} {f : ε → ε'}
    (h : ∀ e, x = .error e → Q (f e)) : FailsOnly Q (x.mapError f) := by
  intro e' he'
  obtain ⟨e, he, rfl⟩ := mapError_eq_error_iff.mp he'
  exact h e he

end FailsOnly

/-- Work over a state goes on with the value of the work before and in the state that it leaves. -/
theorem run_bind {σ : Type} (work : ExceptT ε (StateM σ) α) (next : α → ExceptT ε (StateM σ) β)
    (state : σ) : (work >>= next).run.run state =
      match work.run.run state with
      | (.ok a, after) => (next a).run.run after
      | (.error e, after) => (.error e, after) := by
  simp only [bind, ExceptT.bind, ExceptT.mk, ExceptT.run, StateT.run, StateT.bind]
  generalize work state = done
  match done with
  | (.ok a, after) => rfl
  | (.error e, after) => rfl

/-- Work that looks at the state goes on in it. -/
theorem run_get_bind {σ : Type} (next : σ → ExceptT ε (StateM σ) α) (state : σ) :
    (get >>= next : ExceptT ε (StateM σ) α).run.run state = (next state).run.run state :=
  rfl

/-- Mapping the value of a step is part of the step after it. -/
theorem except_map_bind {γ : Type} (x : Except ε α) (f : α → β) (g : β → Except ε γ) :
    (x.map f >>= g) = x >>= fun a => g (f a) := by
  cases x <;> rfl

/-- Steps over a list succeed with the values that the steps give one by one. -/
theorem mapM_eq_ok_iff {f : α → Except ε β} {xs : List α} {ys : List β} :
    xs.mapM f = .ok ys ↔ List.Forall₂ (fun a b => f a = .ok b) xs ys := by
  induction xs generalizing ys with
  | nil => simp [eq_comm]
  | cons a xs ih =>
    rw [List.mapM_cons, List.forall₂_cons_left_iff, bind_eq_ok_iff]
    refine exists_congr fun b => ?_
    simp only [bind_eq_ok_iff, pure_eq_ok, Except.ok.injEq, ih, exists_and_left, @eq_comm _ ys]

/-- Steps over a list fail as the first step does that fails. -/
theorem mapM_append_cons_error {f : α → Except ε β} {before after : List α} {a : α}
    {bs : List β} {e : ε} (hbefore : before.mapM f = .ok bs) (h : f a = .error e) :
    (before ++ a :: after).mapM f = .error e := by
  rw [List.mapM_append, hbefore, ok_bind, List.mapM_cons, h, error_bind, error_bind]

/-- Steps over a list give a value for each element, or there is a first step that fails. -/
theorem mapM_cases (f : α → Except ε β) (xs : List α) :
    (∃ bs, xs.mapM f = .ok bs ∧ ∀ b ∈ bs, ∃ a ∈ xs, f a = .ok b) ∨
      ∃ before a after bs e, xs = before ++ a :: after ∧ before.mapM f = .ok bs ∧
        f a = .error e ∧ xs.mapM f = .error e := by
  induction xs with
  | nil => exact Or.inl ⟨[], rfl, by simp⟩
  | cons x xs ih =>
    cases hx : f x with
    | error e =>
      refine Or.inr ⟨[], x, xs, [], e, rfl, rfl, hx, ?_⟩
      rw [List.mapM_cons, hx, error_bind]
    | ok b =>
      rcases ih with ⟨bs, hbs, hmem⟩ | ⟨before, a, after, bs, e, rfl, hbefore, ha, hxs⟩
      · refine Or.inl ⟨b :: bs, by rw [List.mapM_cons, hx, ok_bind, hbs]; rfl, fun c hc => ?_⟩
        rcases List.mem_cons.mp hc with rfl | hc
        · exact ⟨x, List.mem_cons_self, hx⟩
        · obtain ⟨a, ha, hfa⟩ := hmem c hc
          exact ⟨a, List.mem_cons_of_mem x ha, hfa⟩
      · refine Or.inr ⟨x :: before, a, after, b :: bs, e, rfl, ?_, ha, ?_⟩
        · rw [List.mapM_cons, hx, ok_bind, hbefore]
          rfl
        · rw [List.mapM_cons, hx, ok_bind, hxs, error_bind]

/-- Two outcomes correspond: they are values of which one relation holds, or failures of which
another one does. -/
inductive Correspond {δ : Type} (R : α → β → Prop) (S : ε → δ → Prop) :
    Except ε α → Except δ β → Prop
  | ok {a : α} {b : β} (h : R a b) : Correspond R S (.ok a) (.ok b)
  | error {e : ε} {d : δ} (h : S e d) : Correspond R S (.error e) (.error d)

namespace Correspond

variable {δ α' β' : Type} {R : α → β → Prop} {R' : α' → β' → Prop} {S : ε → δ → Prop}

/-- An outcome corresponds to itself if all values and all failures do. -/
theorem refl {R : α → α → Prop} {S : ε → ε → Prop} (hR : ∀ a, R a a) (hS : ∀ e, S e e)
    (x : Except ε α) : Correspond R S x x := by
  cases x with
  | ok a => exact .ok (hR a)
  | error e => exact .error (hS e)

/-- What corresponds may be said more loosely. -/
theorem mono {R' : α → β → Prop} {S' : ε → δ → Prop} {x : Except ε α} {y : Except δ β}
    (h : Correspond R S x y) (hR : ∀ a b, R a b → R' a b) (hS : ∀ e d, S e d → S' e d) :
    Correspond R' S' x y := by
  cases h with
  | ok h => exact .ok (hR _ _ h)
  | error h => exact .error (hS _ _ h)

/-- If two steps correspond, and what follows them on corresponding values, so do the sequences. -/
theorem bind {x : Except ε α} {y : Except δ β} {f : α → Except ε α'} {g : β → Except δ β'}
    (h : Correspond R S x y)
    (hnext : ∀ a b, x = .ok a → y = .ok b → R a b → Correspond R' S (f a) (g b)) :
    Correspond R' S (x >>= f) (y >>= g) := by
  cases h with
  | ok h => exact hnext _ _ rfl rfl h
  | error h => exact .error h

/-- Steps that correspond still do with their values mapped. -/
theorem map {x : Except ε α} {y : Except δ β} {f : α → α'} {g : β → β'} (h : Correspond R S x y)
    (hvalues : ∀ a b, R a b → R' (f a) (g b)) : Correspond R' S (x.map f) (y.map g) := by
  cases h with
  | ok h => exact .ok (hvalues _ _ h)
  | error h => exact .error h

/-- Steps over lists correspond if they do one by one. -/
theorem mapM {P : α → β → Prop} {f : α → Except ε α'} {g : β → Except δ β'} {xs : List α}
    {ys : List β} (h : List.Forall₂ P xs ys)
    (hstep : ∀ a b, P a b → Correspond R' S (f a) (g b)) :
    Correspond (List.Forall₂ R') S (xs.mapM f) (ys.mapM g) := by
  induction h with
  | nil => exact .ok .nil
  | cons hab _ ih =>
    rw [List.mapM_cons, List.mapM_cons]
    refine (hstep _ _ hab).bind fun a b _ _ hvalues => ih.bind fun as bs _ _ hrest => ?_
    exact .ok (.cons hvalues hrest)

/-- Outcomes that correspond by equality are equal. -/
theorem eq {x y : Except ε α} (h : Correspond Eq Eq x y) : x = y := by
  cases h with
  | ok h => rw [h]
  | error h => rw [h]

/-- An outcome that corresponds to a value is one. -/
theorem exists_of_ok {a : α} {y : Except δ β} (h : Correspond R S (.ok a) y) :
    ∃ b, y = .ok b ∧ R a b := by
  cases h with
  | ok h => exact ⟨_, rfl, h⟩

/-- An outcome that corresponds to a failure is one. -/
theorem exists_of_error {e : ε} {y : Except δ β} (h : Correspond R S (.error e) y) :
    ∃ d, y = .error d ∧ S e d := by
  cases h with
  | error h => exact ⟨_, rfl, h⟩

end Correspond

end DriverPolicy
