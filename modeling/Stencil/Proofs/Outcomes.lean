import Mathlib.Data.List.Forall2

/-! Computations that may fail, taken apart: a sequence succeeds if each of its parts does, and otherwise
fails with the error of the first part that does not. The same holds of computations that have a state. -/
namespace Stencil

variable {ε α β : Type}

theorem bind_eq_ok {x : Except ε α} {f : α → Except ε β} {b : β} :
    (x >>= f) = .ok b ↔ ∃ a, x = .ok a ∧ f a = .ok b := by
  cases x with
  | error e => simp [bind, Except.bind]
  | ok a => simp [bind, Except.bind]

theorem map_eq_ok {x : Except ε α} {f : α → β} {b : β} :
    x.map f = .ok b ↔ ∃ a, x = .ok a ∧ f a = b := by
  cases x with
  | error e => simp [Except.map]
  | ok a => simp [Except.map]

theorem pure_eq_ok {a b : α} : (pure a : Except ε α) = .ok b ↔ a = b := by
  simp [pure, Except.pure]

theorem exists_ok {x : Except ε α} (h : x.isOk = true) : ∃ a, x = .ok a := by
  cases x with
  | error e => simp [Except.isOk, Except.toBool] at h
  | ok a => exact ⟨a, rfl⟩

theorem mapM_eq_ok {f : α → Except ε β} {xs : List α} {ys : List β} :
    xs.mapM f = .ok ys ↔ List.Forall₂ (fun x y => f x = .ok y) xs ys := by
  induction xs generalizing ys with
  | nil => cases ys <;> simp [pure_eq_ok]
  | cons x xs ih =>
    simp only [List.mapM_cons, bind_eq_ok, pure_eq_ok, ih]
    constructor
    · rintro ⟨y, hy, rest, hrest, rfl⟩
      exact .cons hy hrest
    · rintro (_ | ⟨hy, hrest⟩)
      exact ⟨_, hy, _, hrest, rfl⟩

theorem mapM_congr {f g : α → Except ε β} {xs : List α} (h : ∀ x ∈ xs, f x = g x) : xs.mapM f = xs.mapM g := by
  induction xs with
  | nil => rfl
  | cons x xs ih =>
    rw [List.forall_mem_cons] at h
    rw [List.mapM_cons, List.mapM_cons, h.1, ih h.2]

def outcome (error? : Option ε) (a : α) : Except ε α :=
  match error? with
  | some e => .error e
  | none => .ok a

theorem outcome_eq_ok {error? : Option ε} {a b : α} : outcome error? a = .ok b ↔ error? = none ∧ a = b := by
  cases error? <;> simp [outcome]

def errorOf? : Except ε α → Option ε
  | .error e => some e
  | .ok _ => none

theorem errorOf?_eq_some {x : Except ε α} {e : ε} : errorOf? x = some e ↔ x = .error e := by
  cases x <;> simp [errorOf?]

theorem errorOf?_eq_none {x : Except ε α} : errorOf? x = none ↔ ∃ a, x = .ok a := by
  cases x <;> simp [errorOf?]

theorem outcome_errorOf? (x : Except ε α) (a : α) : outcome (errorOf? x) (x.toOption.getD a) = x := by
  cases x <;> rfl

theorem errorOf?_outcome (error? : Option ε) (a : α) : errorOf? (outcome error? a) = error? := by
  cases error? <;> rfl

theorem errorOf?_map (x : Except ε α) (f : α → β) : errorOf? (x.map f) = errorOf? x := by
  cases x <;> rfl

theorem errorOf?_bind {x : Except ε α} {f : α → Except ε β} {e? : Option ε} (h : ∀ a, errorOf? (f a) = e?) :
    errorOf? (x >>= f) = (errorOf? x).or e? := by
  cases x with
  | error e => rfl
  | ok a => exact h a

theorem errorOf?_bind_pure (x : Except ε α) (f : α → β) : errorOf? (x >>= fun a => pure (f a)) = errorOf? x := by
  cases x <;> rfl

theorem errorOf?_mapM (f : α → Except ε β) (xs : List α) :
    errorOf? (xs.mapM f) = xs.findSome? fun x => errorOf? (f x) := by
  induction xs with
  | nil => rfl
  | cons x xs ih =>
    rw [List.mapM_cons, errorOf?_bind fun y => errorOf?_bind_pure (xs.mapM f) (y :: ·), ih]
    cases hx : errorOf? (f x) <;> simp [hx]

/-- Of two computations in sequence, the second of which does not depend on the first, the first error wins. -/
theorem outcome_bind (e? e'? : Option ε) (a : α) (b : α → β) :
    (outcome e? a >>= fun x => outcome e'? (b x)) = outcome (e?.or e'?) (b a) := by
  cases e? <;> rfl

theorem outcome_pure (a : α) : (pure a : Except ε α) = outcome none a := rfl

theorem mapM_outcome (error? : α → Option ε) (value : α → β) (xs : List α) :
    xs.mapM (fun x => outcome (error? x) (value x)) = outcome (xs.findSome? error?) (xs.map value) := by
  induction xs with
  | nil => rfl
  | cons x xs ih =>
    rw [List.mapM_cons, ih]
    simp only [outcome_pure, outcome_bind, Option.or_none]
    cases hx : error? x <;> simp [hx]

theorem foldlM_flatMap {γ : Type} (f : γ → β → Except ε γ) (g : α → List β) (xs : List α) (c : γ) :
    (xs.flatMap g).foldlM f c = xs.foldlM (fun c x => (g x).foldlM f c) c := by
  induction xs generalizing c with
  | nil => rfl
  | cons x xs ih => simp only [List.flatMap_cons, List.foldlM_append, List.foldlM_cons, ih]

section Stateful

variable {σ : Type} {s s' : σ} {x : ExceptT ε (StateM σ) α} {f : α → ExceptT ε (StateM σ) β} {a : α} {b : β} {e : ε}

/-- What a computation results in, and the state after it. -/
def perform (x : ExceptT ε (StateM σ) α) (s : σ) : Except ε α × σ := x.run.run s

theorem perform_bind_of_ok (h : perform x s = (.ok a, s')) : perform (x >>= f) s = perform (f a) s' := by
  change x.run.run s = (.ok a, s') at h
  rw [perform, ExceptT.run_bind, StateT.run_bind, h]
  rfl

theorem perform_bind_of_error (h : perform x s = (.error e, s')) : perform (x >>= f) s = (.error e, s') := by
  change x.run.run s = (.error e, s') at h
  rw [perform, ExceptT.run_bind, StateT.run_bind, h]
  rfl

@[simp] theorem perform_pure (a : α) (s : σ) : perform (pure a : ExceptT ε (StateM σ) α) s = (.ok a, s) := rfl

@[simp] theorem perform_throw (e : ε) (s : σ) : perform (throw e : ExceptT ε (StateM σ) α) s = (.error e, s) := rfl

@[simp] theorem perform_get_bind (f : σ → ExceptT ε (StateM σ) β) (s : σ) :
    perform (get >>= f) s = perform (f s) s := rfl

@[simp] theorem perform_lift (y : StateM σ α) (s : σ) :
    perform (liftM y : ExceptT ε (StateM σ) α) s = (.ok (y.run s).1, (y.run s).2) := rfl

theorem perform_caught_bind {ε' : Type} {r : Except ε α} {g : Except ε α → ExceptT ε' (StateM σ) β}
    (h : perform x s = (r, s')) : perform (liftM x.run >>= g) s = perform (g r) s' := by
  have hlift : perform (liftM x.run : ExceptT ε' (StateM σ) (Except ε α)) s = (.ok (perform x s).1, (perform x s).2) :=
    rfl
  rw [h] at hlift
  exact perform_bind_of_ok hlift

theorem perform_unless {c : Bool} {rest : Unit → ExceptT ε (StateM σ) α} :
    perform (if (!c) = true then throw e >>= rest else rest ()) s =
      if c = true then perform (rest ()) s else (.error e, s) := by
  cases c <;> rfl

end Stateful

end Stencil
