import Stellance.Library.Process

/-! What a process does as long as it is told nothing bad. The answers it relies on are
those of a world that keeps an invariant, and the operations it performs are what keeps
the invariant in turn, so both hold of a pool together. -/
namespace Process
variable {ε Op : Type} {Res : Op → Type} {α β : Type}

/-- Told only good answers, the process performs only what it may and returns as it should. -/
def Relies (good : (op : Op) → Except ε (Res op) → Prop) (may : Op → Prop) (ends : α → Prop) :
    Process ε Op Res α → Prop
  | done a => ends a
  | fail _ => True
  | await op next => may op ∧ ∀ answer, good op answer → (next answer).Relies good may ends

section Relies
variable {good : (op : Op) → Except ε (Res op) → Prop} {may : Op → Prop} {ends : α → Prop}

theorem relies_bind {first : β → Prop} {x : Process ε Op Res β} {f : β → Process ε Op Res α}
    (relies : x.Relies good may first) (rest : ∀ b, first b → (f b).Relies good may ends) :
    (x >>= f).Relies good may ends := by
  change (x.bind f).Relies good may ends
  induction x with
  | done b => exact rest b relies
  | fail => trivial
  | await op next ih => exact ⟨relies.1, fun answer told => ih answer (relies.2 answer told)⟩

theorem Relies.mono {ends' : α → Prop} {p : Process ε Op Res α} (relies : p.Relies good may ends)
    (weaker : ∀ a, ends a → ends' a) : p.Relies good may ends' := by
  induction p with
  | done a => exact weaker a relies
  | fail => trivial
  | await op next ih => exact ⟨relies.1, fun answer told => ih answer (relies.2 answer told)⟩

/-- With nothing to rely on, what holds of every outcome. -/
theorem relies_always {p : Process ε Op Res α} (always : ∀ a, ends a) :
    p.Relies good (fun _ => True) ends := by
  induction p with
  | done a => exact always a
  | fail => trivial
  | await op next ih => exact ⟨trivial, fun answer _ => ih answer⟩

theorem relies_map {x : Process ε Op Res β} {f : β → α}
    (relies : x.Relies good may fun b => ends (f b)) : (f <$> x).Relies good may ends :=
  relies_bind relies fun _ returned => returned

theorem relies_perform {op : Op} {rest : Res op → Process ε Op Res α} (allowed : may op)
    (goes : ∀ value, good op (.ok value) → (rest value).Relies good may ends) :
    (perform op >>= rest).Relies good may ends := by
  refine ⟨allowed, fun answer told => ?_⟩
  cases answer with
  | ok value => exact goes value told
  | error => trivial

theorem relies_last {op : Op} {ends : Res op → Prop} (allowed : may op)
    (returned : ∀ value, good op (.ok value) → ends value) :
    (perform op : Process ε Op Res (Res op)).Relies good may ends := by
  refine ⟨allowed, fun answer told => ?_⟩
  cases answer with
  | ok value => exact returned value told
  | error => trivial

theorem relies_throwIf {condition : Prop} [Decidable condition] {e : ε}
    {rest : Unit → Process ε Op Res α} (passed : ¬ condition → (rest ()).Relies good may ends) :
    (throwIf condition e >>= rest).Relies good may ends :=
  throwIf_ind (fun _ => trivial) passed

theorem relies_orThrow {value : Option β} {e : ε} {rest : β → Process ε Op Res α}
    (passed : ∀ b, value = some b → (rest b).Relies good may ends) :
    (orThrow value e >>= rest).Relies good may ends :=
  orThrow_ind (fun _ => trivial) passed

theorem relies_value {value : Option α} {e : ε} (some' : ∀ a, value = some a → ends a) :
    (orThrow value e : Process ε Op Res α).Relies good may ends := by
  cases value with
  | none => trivial
  | some a => exact some' a rfl

theorem relies_tryCatch {x : Process ε Op Res α} {handler : ε → Process ε Op Res α}
    (relies : x.Relies good may ends) (caught : ∀ e, (handler e).Relies good may ends) :
    (x.tryCatch handler).Relies good may ends := by
  induction x with
  | done a => exact relies
  | fail e => exact caught e
  | await op next ih => exact ⟨relies.1, fun answer told => ih answer (relies.2 answer told)⟩

end Relies

/-! ### In a pool -/

section Pool
variable {W ρ : Type} {good : (op : Op) → Except ε (Res op) → Prop} {may : ρ → Op → Prop}
  {ends : ρ → α → Prop} {handler : ρ → Process ε Op Res α}
  {serve : Nat → W → (op : Op) → Except ε (Res op) → W → Prop} {outside : W → W → Prop}
  {pool pool' : Pool W ρ ε Op Res α} {event : Event ρ ε Op Res}

/-- Every request in flight relies on good answers from here on. -/
def Pool.Relying (good : (op : Op) → Except ε (Res op) → Prop) (may : ρ → Op → Prop)
    (ends : ρ → α → Prop) (pool : Pool W ρ ε Op Res α) : Prop :=
  ∀ entry ∈ pool.running, entry.2.Relies good (may entry.1) (ends entry.1)

theorem Pool.relying_idle (idle : pool.running = []) : pool.Relying good may ends := by
  rw [Pool.Relying, idle]
  exact List.forall_mem_nil _

theorem Pool.Step.relying (step : Pool.Step handler serve outside pool event pool')
    (relies : ∀ request, event = .start request →
      (handler request).Relies good (may request) (ends request))
    (told : ∀ index op answer, event = .served index op answer → good op answer)
    (relying : pool.Relying good may ends) : pool'.Relying good may ends :=
  step.each (fun request rest => rest.Relies good (may request) (ends request)) relies
    (fun index _ op _ answer served _ reliant => reliant.2 answer (told index op answer served)) relying

/-- An operation that is answered is one its request may perform. -/
theorem Pool.Step.allowed {index : Nat} {op : Op} {answer : Except ε (Res op)}
    (step : Pool.Step handler serve outside pool (.served index op answer) pool')
    (relying : pool.Relying good may ends) :
    ∃ request next, pool.running[index]? = some (request, await op next) ∧ may request op := by
  cases step with
  | @served world running _ request _ next _ _ found answered =>
    exact ⟨request, next, found, (relying _ (List.mem_of_getElem? found)).1⟩

end Pool
end Process
