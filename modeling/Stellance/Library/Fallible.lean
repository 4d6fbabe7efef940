/-! Inversion rules for computations whose state survives a failure. They turn
the outcome of a composed computation into the outcomes of its parts, so a
specification is read off the parts and no computation is unfolded by its callers. -/
namespace Fallible
variable {σ ε α β : Type} {x : EStateM ε σ α} {f : α → EStateM ε σ β} {s t : σ}

private theorem bind_run : (x >>= f) s =
    match x s with
    | .ok a u => f a u
    | .error e u => .error e u := by
  change EStateM.bind x f s = _
  unfold EStateM.bind
  cases x s <;> rfl

theorem bind_ok {b : β} : (x >>= f) s = .ok b t ↔ ∃ a u, x s = .ok a u ∧ f a u = .ok b t := by
  rw [bind_run]
  cases x s <;> simp [and_assoc]

/-- A composed computation fails where its first part does, or after it. -/
theorem bind_error {e : ε} : (x >>= f) s = .error e t ↔
    x s = .error e t ∨ ∃ a u, x s = .ok a u ∧ f a u = .error e t := by
  rw [bind_run]
  cases x s <;> simp [and_assoc]

theorem pure_ok {a b : α} : (pure a : EStateM ε σ α) s = .ok b t ↔ a = b ∧ s = t := by
  change EStateM.Result.ok a s = .ok b t ↔ _
  simp

theorem pure_error {a : α} {e : ε} : ¬ (pure a : EStateM ε σ α) s = .error e t := by
  intro h
  change EStateM.Result.ok a s = .error e t at h
  contradiction

end Fallible
