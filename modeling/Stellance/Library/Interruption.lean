import Stellance.Library.Process

/-! Requests that break off. A request may be answered a number of times and then fail
at an await; what it has done until then stays done. Issuing it again is safe where the
awaits before the break left the world as it was. -/
namespace Process
variable {ε Op : Type} {Res : Op → Type} {α W V : Type}
  {serve : W → (op : Op) → Except ε (Res op) → W → Prop} {w last : W} {p : Process ε Op Res α}
  {n : Nat} {e : ε}

/-- The process is answered `n` times and fails at its next await. -/
inductive Interrupted (serve : W → (op : Op) → Except ε (Res op) → W → Prop) :
    Nat → W → Process ε Op Res α → ε → W → Prop where
  | now {w op next e e'} (fails : next (.error e) = fail e') :
      Interrupted serve 0 w (await op next) e' w
  | later {n w op next answer between e last} (served : serve w op answer between)
      (rest : Interrupted serve n between (next answer) e last) :
      Interrupted serve (n + 1) w (await op next) e last

theorem not_interrupted_fail {e' : ε} :
    ¬ Interrupted serve n w (fail e' : Process ε Op Res α) e last := by
  intro broke
  cases broke

theorem interrupted_zero (broke : Interrupted serve 0 w p e last) : last = w := by
  cases p with
  | done a => cases broke
  | fail e' => cases broke
  | await op next =>
    cases broke with
    | now => rfl

theorem interrupted_await {op : Op} {next : Except ε (Res op) → Process ε Op Res α}
    (broke : Interrupted serve n w (await op next) e last) :
    (n = 0 ∧ last = w) ∨ ∃ m answer between, n = m + 1 ∧ serve w op answer between ∧
      Interrupted serve m between (next answer) e last := by
  cases broke with
  | now => exact .inl ⟨rfl, rfl⟩
  | later served rest => exact .inr ⟨_, _, _, rfl, served, rest⟩

/-- What only bad operations break survives a process with none. -/
theorem Completes.invariant_never {B : Op → Prop} {I : W → Prop} {result : Except ε α}
    (keeps : ∀ {w op answer w'}, serve w op answer w' → ¬ B op → I w → I w')
    (ran : Completes serve w p result last) (never : p.Never B) (initial : I w) : I last := by
  induction ran with
  | done | fail => exact initial
  | await served _ ih => exact ih (never.2 _) (keeps served never.1 initial)

/-- A reading of the world that only bad operations change stays the same. -/
theorem Completes.unchanged {B : Op → Prop} {f : W → V} {result : Except ε α}
    (keeps : ∀ {w op answer w'}, serve w op answer w' → ¬ B op → f w' = f w)
    (ran : Completes serve w p result last) (never : p.Never B) : f last = f w :=
  ran.invariant_never (B := B) (I := fun w' => f w' = f w)
    (fun served good same => (keeps served good).trans same) never rfl

theorem Interrupted.unchanged {B : Op → Prop} {f : W → V}
    (keeps : ∀ {w op answer w'}, serve w op answer w' → ¬ B op → f w' = f w)
    (broke : Interrupted serve n w p e last) (never : p.Never B) : f last = f w := by
  induction broke with
  | now => rfl
  | later served _ ih => exact (ih (never.2 _)).trans (keeps served never.1)

/-- What every answer keeps, a broken request keeps. -/
theorem Interrupted.invariant {I : W → Prop}
    (keeps : ∀ {w op answer w'}, serve w op answer w' → I w → I w')
    (broke : Interrupted serve n w p e last) (initial : I w) : I last := by
  induction broke with
  | now => exact initial
  | later served _ ih => exact ih (keeps served initial)

/-! ### Computed -/

/-- The process with `n` computed answers and a failure after them. -/
def breakAt (answer : W → (op : Op) → Option (Except ε (Res op) × W)) (failure : ε) :
    Nat → W → Process ε Op Res α → Option (ε × W)
  | 0, w, await _ next =>
      match next (.error failure) with
      | fail e => some (e, w)
      | _ => none
  | n + 1, w, await op next =>
      (answer w op).bind fun (given, between) => breakAt answer failure n between (next given)
  | _, _, _ => none

theorem breakAt_interrupted {answer : W → (op : Op) → Option (Except ε (Res op) × W)} {failure : ε}
    (sound : ∀ {w op given between}, answer w op = some (given, between) → serve w op given between)
    (broke : breakAt answer failure n w p = some (e, last)) : Interrupted serve n w p e last := by
  induction n generalizing w p with
  | zero =>
    cases p with
    | await op next =>
      rw [breakAt] at broke
      split at broke
      · rename_i fails
        cases broke
        exact .now fails
      · contradiction
    | done | fail => contradiction
  | succ n ih =>
    cases p with
    | await op next =>
      obtain ⟨⟨given, between⟩, answered, rest⟩ := Option.bind_eq_some_iff.mp broke
      exact .later (sound answered) (ih rest)
    | done | fail => contradiction

end Process
