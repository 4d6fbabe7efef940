import Stellance.Library.Transcript

/-! Two services over one world. A process of one of them is a process over the operations
of both, so the requests of both run in one pool and interleave. -/
namespace Process
variable {ε Op₁ Op₂ : Type} {Res₁ : Op₁ → Type} {Res₂ : Op₂ → Type} {α : Type}

/-- A process of the first service. -/
def left : Process ε Op₁ Res₁ α → Process ε (Op₁ ⊕ Op₂) (Sum.elim Res₁ Res₂) α
  | done a => done a
  | fail e => fail e
  | await op next => await (.inl op) fun answer => (next answer).left

/-- A process of the second service. -/
def right : Process ε Op₂ Res₂ α → Process ε (Op₁ ⊕ Op₂) (Sum.elim Res₁ Res₂) α
  | done a => done a
  | fail e => fail e
  | await op next => await (.inr op) fun answer => (next answer).right

/-- Each operation is answered by its own service. -/
inductive ServedByOne {W : Type} (serve₁ : W → (op : Op₁) → Except ε (Res₁ op) → W → Prop)
    (serve₂ : W → (op : Op₂) → Except ε (Res₂ op) → W → Prop) (w : W) :
    (op : Op₁ ⊕ Op₂) → Except ε (Sum.elim Res₁ Res₂ op) → W → Prop where
  | left {op : Op₁} {answer : Except ε (Res₁ op)} {w' : W} (served : serve₁ w op answer w') :
      ServedByOne serve₁ serve₂ w (.inl op) answer w'
  | right {op : Op₂} {answer : Except ε (Res₂ op)} {w' : W} (served : serve₂ w op answer w') :
      ServedByOne serve₁ serve₂ w (.inr op) answer w'

/-- Computed answers of both. -/
def answerBoth {W : Type} (answer₁ : W → (op : Op₁) → Option (Except ε (Res₁ op) × W))
    (answer₂ : W → (op : Op₂) → Option (Except ε (Res₂ op) × W)) (w : W) :
    (op : Op₁ ⊕ Op₂) → Option (Except ε (Sum.elim Res₁ Res₂ op) × W)
  | .inl op => answer₁ w op
  | .inr op => answer₂ w op

theorem answerBoth_served {W : Type} {serve₁ : W → (op : Op₁) → Except ε (Res₁ op) → W → Prop}
    {serve₂ : W → (op : Op₂) → Except ε (Res₂ op) → W → Prop}
    {answer₁ : W → (op : Op₁) → Option (Except ε (Res₁ op) × W)}
    {answer₂ : W → (op : Op₂) → Option (Except ε (Res₂ op) × W)}
    (sound₁ : ∀ w op given w', answer₁ w op = some (given, w') → serve₁ w op given w')
    (sound₂ : ∀ w op given w', answer₂ w op = some (given, w') → serve₂ w op given w') {w w' : W}
    {op : Op₁ ⊕ Op₂} {given : Except ε (Sum.elim Res₁ Res₂ op)}
    (answered : answerBoth answer₁ answer₂ w op = some (given, w')) :
    ServedByOne serve₁ serve₂ w op given w' := by
  cases op with
  | inl op => exact .left (sound₁ _ _ _ _ answered)
  | inr op => exact .right (sound₂ _ _ _ _ answered)

/-! ### Scripts -/

/-- What the first service told, among the exchanges of both. -/
def Exchange.left (exchange : Exchange ε Op₁ Res₁) : Exchange ε (Op₁ ⊕ Op₂) (Sum.elim Res₁ Res₂) :=
  ⟨.inl exchange.1, exchange.2⟩

/-- What the second service told. -/
def Exchange.right (exchange : Exchange ε Op₂ Res₂) : Exchange ε (Op₁ ⊕ Op₂) (Sum.elim Res₁ Res₂) :=
  ⟨.inr exchange.1, exchange.2⟩

section Scripts
variable {may : List (Exchange ε (Op₁ ⊕ Op₂) (Sum.elim Res₁ Res₂)) → Op₁ ⊕ Op₂ → Prop}

/-- A script of one service is one of both, where it allows as much. -/
theorem follows_left {may₁ : List (Exchange ε Op₁ Res₁) → Op₁ → Prop}
    {ends : List (Exchange ε Op₁ Res₁) → Except ε α → Prop} {p : Process ε Op₁ Res₁ α}
    {told : List (Exchange ε Op₁ Res₁)} (follows : p.Follows may₁ ends told)
    (allowed : ∀ told op, may₁ told op → may (told.map Exchange.left) (.inl op)) :
    p.left.Follows may (fun _ _ => True) (told.map Exchange.left) := by
  induction p generalizing told with
  | done | fail => trivial
  | await op next ih =>
    refine ⟨allowed told op follows.1, fun answer => ?_⟩
    have rest := ih answer (follows.2 answer)
    rw [List.map_append] at rest
    exact rest

theorem follows_right {may₂ : List (Exchange ε Op₂ Res₂) → Op₂ → Prop}
    {ends : List (Exchange ε Op₂ Res₂) → Except ε α → Prop} {p : Process ε Op₂ Res₂ α}
    {told : List (Exchange ε Op₂ Res₂)} (follows : p.Follows may₂ ends told)
    (allowed : ∀ told op, may₂ told op → may (told.map Exchange.right) (.inr op)) :
    p.right.Follows may (fun _ _ => True) (told.map Exchange.right) := by
  induction p generalizing told with
  | done | fail => trivial
  | await op next ih =>
    refine ⟨allowed told op follows.1, fun answer => ?_⟩
    have rest := ih answer (follows.2 answer)
    rw [List.map_append] at rest
    exact rest

end Scripts

/-! ### What no request of a pool ever does -/

section Never
variable {W ρ Op : Type} {Res : Op → Type} {bad : Op → Prop} {handler : ρ → Process ε Op Res α}
  {serve : Nat → W → (op : Op) → Except ε (Res op) → W → Prop} {outside : W → W → Prop}
  {pool pool' start : Pool W ρ ε Op Res α} {event : Event ρ ε Op Res}

/-- No request in flight will perform one of the bad operations. -/
def Pool.Clean (bad : Op → Prop) (pool : Pool W ρ ε Op Res α) : Prop :=
  ∀ entry ∈ pool.running, entry.2.Never bad

theorem Pool.Step.clean (step : Pool.Step handler serve outside pool event pool')
    (never : ∀ request, (handler request).Never bad) (clean : pool.Clean bad) : pool'.Clean bad :=
  step.each (fun _ rest => rest.Never bad) (fun request _ => never request)
    (fun _ _ _ _ answer _ _ never => never.2 answer) clean

/-- An operation that is answered in a clean pool is not a bad one. -/
theorem Pool.Step.good {index : Nat} {op : Op} {answer : Except ε (Res op)}
    (step : Pool.Step handler serve outside pool (.served index op answer) pool')
    (clean : pool.Clean bad) : ¬ bad op := by
  cases step with
  | served found answered => exact (clean _ (List.mem_of_getElem? found)).1

end Never

end Process
