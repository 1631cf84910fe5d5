import Duplex.Fault

/-!
# Results: computations that return

`Returns x P` says that a computation meets no fault and that its result has the property `P`. It is
proved along the computation, one step after another; where the result is known, `bind_eq_ok` and
`map_eq_ok` take the computation apart instead.
-/

namespace Duplex

variable {α β ε : Type}

/-- The computation gives a result, and the result has the property. -/
def Returns (x : Checked α) (P : α → Prop) : Prop := ∃ a, x = .ok a ∧ P a

theorem returns_ok {a : α} {P : α → Prop} (h : P a) : Returns (.ok a) P := ⟨a, rfl, h⟩

namespace Returns

variable {x : Checked α} {P Q : α → Prop}

theorem mono (h : Returns x P) (hPQ : ∀ a, P a → Q a) : Returns x Q := by
  obtain ⟨a, hx, ha⟩ := h
  exact ⟨a, hx, hPQ a ha⟩

theorem bind {f : α → Checked β} {R : β → Prop} (h : Returns x P)
    (hf : ∀ a, P a → Returns (f a) R) : Returns (x >>= f) R := by
  obtain ⟨a, rfl, ha⟩ := h
  exact hf a ha

theorem map {f : α → β} {R : β → Prop} (h : Returns x P) (hf : ∀ a, P a → R (f a)) :
    Returns (x.map f) R := by
  obtain ⟨a, rfl, ha⟩ := h
  exact ⟨f a, rfl, hf a ha⟩

/-- A result that is known has every property that the computation promises. -/
theorem elim {a : α} (h : Returns x P) (ha : x = .ok a) : P a := by
  obtain ⟨b, hb, hP⟩ := h
  cases ha.symm.trans hb
  exact hP

end Returns

/-! ### Taking computations apart -/

@[simp] theorem ok_bind (a : α) (f : α → Checked β) : (Except.ok a >>= f) = f a := rfl

@[simp] theorem error_bind (e : Fault) (f : α → Checked β) :
    ((Except.error e : Checked α) >>= f) = .error e := rfl

theorem bind_eq_ok {x : Checked α} {f : α → Checked β} {b : β} :
    (x >>= f) = .ok b ↔ ∃ a, x = .ok a ∧ f a = .ok b := by
  cases x with
  | error e => simp
  | ok a => simp

theorem map_eq_ok {x : Checked α} {f : α → β} {b : β} :
    x.map f = .ok b ↔ ∃ a, x = .ok a ∧ f a = b := by
  cases x with
  | error e => simp [Except.map]
  | ok a => simp [Except.map]

/-! ### Attempts -/

@[simp] theorem run_pure (a : α) : (pure a : Attempt ε α).run = .ok (.ok a) := rfl

@[simp] theorem run_throw_bind (e : ε) (f : α → Attempt ε β) :
    ((throw e : Attempt ε α) >>= f).run = .ok (.error e) := rfl

/-- A computation that may fault is made first. -/
@[simp] theorem run_lift_bind (x : Checked α) (f : α → Attempt ε β) :
    ((liftM x : Attempt ε α) >>= f).run = x >>= fun a => (f a).run := by
  cases x <;> rfl

/-- An attempt in two steps succeeds when both do. -/
theorem attempt_bind_eq_ok {x : Attempt ε α} {f : α → Attempt ε β} {b : β} :
    (x >>= f).run = .ok (.ok b) ↔ ∃ a, x.run = .ok (.ok a) ∧ (f a).run = .ok (.ok b) := by
  rw [ExceptT.run_bind]
  cases x.run with
  | error e => simp
  | ok r =>
    cases r with
    | error e => simp [pure, Except.pure]
    | ok a => simp

theorem attempt_throw_bind_eq_ok {e : ε} {f : α → Attempt ε β} {b : β} :
    ¬ ((throw e : Attempt ε α) >>= f).run = .ok (.ok b) := by
  rw [run_throw_bind]
  simp

/-- A result or an error is lifted without a change. -/
theorem attempt_except_eq_ok {x : Except ε α} {a : α} :
    (liftM x : Attempt ε α).run = .ok (.ok a) ↔ x = .ok a := by
  have hrun : (liftM x : Attempt ε α).run = .ok x := rfl
  rw [hrun]
  simp

/-- Renaming the error keeps the result. -/
theorem attempt_adapt_eq_ok {δ : Type} {f : ε → δ} {x : Attempt ε α} {a : α} :
    (x.adapt f).run = .ok (.ok a) ↔ x.run = .ok (.ok a) := by
  rw [ExceptT.run_adapt]
  cases x.run with
  | error e => simp [Functor.map, Except.map]
  | ok r =>
    cases r with
    | error e =>
      show Except.ok (Except.error (f e)) = .ok (.ok a) ↔ Except.ok (Except.error e) = .ok (.ok a)
      simp
    | ok b =>
      show Except.ok (Except.ok b) = .ok (.ok a) ↔ Except.ok (Except.ok b) = .ok (.ok a)
      simp

/-! ### Attempts that are made or refused -/

/-- An attempt in two steps is made or refused if both are. -/
theorem attempt_bind_answers {x : Attempt ε α} {f : α → Attempt ε β}
    (hx : Returns x.run fun _ => True) (hf : ∀ a, Returns (f a).run fun _ => True) :
    Returns (x >>= f).run fun _ => True := by
  obtain ⟨r, hr, -⟩ := hx
  rw [ExceptT.run_bind, hr]
  cases r with
  | error e => exact returns_ok trivial
  | ok a => exact hf a

theorem attempt_except_answers (x : Except ε α) :
    Returns (liftM x : Attempt ε α).run fun _ => True := ⟨x, rfl, trivial⟩

theorem attempt_adapt_answers {δ : Type} (f : ε → δ) {x : Attempt ε α}
    (hx : Returns x.run fun _ => True) : Returns (x.adapt f).run fun _ => True := by
  obtain ⟨r, hr, -⟩ := hx
  rw [ExceptT.run_adapt, hr]
  exact returns_ok trivial

end Duplex
