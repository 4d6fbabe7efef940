import Stellance.Library.Runs

/-! Programs cut at their awaits. A process is what is left of a request: it has
returned, failed, or waits for the answer of one operation. The same process is run
to its end in one go, where requests come one at a time, or answer by answer in a
pool, where they interleave in any order. -/

inductive Process (ε Op : Type) (Res : Op → Type) (α : Type) where
  | done (value : α)
  | fail (error : ε)
  | await (op : Op) (next : Except ε (Res op) → Process ε Op Res α)

namespace Process
variable {ε Op : Type} {Res : Op → Type} {α β : Type}

def bind : Process ε Op Res α → (α → Process ε Op Res β) → Process ε Op Res β
  | done a, f => f a
  | fail e, _ => fail e
  | await op next, f => await op fun answer => (next answer).bind f

instance : Monad (Process ε Op Res) where
  pure := done
  bind := bind

theorem bind_assoc {γ : Type} (x : Process ε Op Res α) (f : α → Process ε Op Res β)
    (g : β → Process ε Op Res γ) : x >>= f >>= g = x >>= fun a => f a >>= g := by
  change (x.bind f).bind g = x.bind fun a => (f a).bind g
  induction x with
  | done a => rfl
  | fail e => rfl
  | await op next ih =>
    simp only [bind]
    exact congrArg (await op) (funext ih)

/-- Await one operation; its failure is thrown. -/
def perform (op : Op) : Process ε Op Res (Res op) :=
  await op fun
    | .ok value => done value
    | .error e => fail e

def tryCatch (handler : ε → Process ε Op Res α) : Process ε Op Res α → Process ε Op Res α
  | done a => done a
  | fail e => handler e
  | await op next => await op fun answer => (next answer).tryCatch handler

/-- `if (condition) throw new ...` -/
def throwIf (condition : Prop) [Decidable condition] (e : ε) : Process ε Op Res Unit :=
  if condition then fail e else done ()

/-- The value of an option, or an exception. -/
def orThrow (value : Option α) (e : ε) : Process ε Op Res α :=
  match value with
  | some a => done a
  | none => fail e

/-- A guard is settled by its two outcomes. -/
theorem throwIf_ind {motive : Process ε Op Res α → Prop} {condition : Prop} [Decidable condition]
    {e : ε} {rest : Unit → Process ε Op Res α} (thrown : condition → motive (fail e))
    (passed : ¬ condition → motive (rest ())) : motive (throwIf condition e >>= rest) := by
  rw [throwIf]
  split
  · rename_i holds
    exact thrown holds
  · rename_i fails
    exact passed fails

theorem orThrow_ind {motive : Process ε Op Res α → Prop} {value : Option β} {e : ε}
    {rest : β → Process ε Op Res α} (thrown : value = none → motive (fail e))
    (passed : ∀ b, value = some b → motive (rest b)) : motive (orThrow value e >>= rest) := by
  cases value with
  | none => exact thrown rfl
  | some b => exact passed b rfl

/-- No operation of the process, however it is answered, is among the bad ones. -/
def Never (bad : Op → Prop) : Process ε Op Res α → Prop
  | done _ | fail _ => True
  | await op next => ¬ bad op ∧ ∀ answer, (next answer).Never bad

section Never
variable {bad : Op → Prop}

theorem never_bind {x : Process ε Op Res β} {f : β → Process ε Op Res α} (first : x.Never bad)
    (rest : ∀ b, (f b).Never bad) : (x >>= f).Never bad := by
  change (x.bind f).Never bad
  induction x with
  | done b => exact rest b
  | fail e => trivial
  | await op next ih => exact ⟨first.1, fun answer => ih answer (first.2 answer)⟩

theorem never_map {x : Process ε Op Res β} {f : β → α} (first : x.Never bad) :
    (f <$> x).Never bad :=
  never_bind first fun _ => trivial

theorem never_perform {op : Op} (good : ¬ bad op) :
    (perform op : Process ε Op Res (Res op)).Never bad := by
  refine ⟨good, fun answer => ?_⟩
  cases answer <;> trivial

theorem never_tryCatch {x : Process ε Op Res α} {handler : ε → Process ε Op Res α} (first : x.Never bad)
    (caught : ∀ e, (handler e).Never bad) : (x.tryCatch handler).Never bad := by
  induction x with
  | done a => trivial
  | fail e => exact caught e
  | await op next ih => exact ⟨first.1, fun answer => ih answer (first.2 answer)⟩

theorem never_orThrow {value : Option α} {e : ε} :
    (orThrow value e : Process ε Op Res α).Never bad := by
  cases value <;> trivial

end Never

/-! ### One request at a time -/

section Completes
variable {W : Type} {serve : W → (op : Op) → Except ε (Res op) → W → Prop}

/-- The process, run alone from one world to its end, returns or fails in another. -/
inductive Completes (serve : W → (op : Op) → Except ε (Res op) → W → Prop) :
    W → Process ε Op Res α → Except ε α → W → Prop where
  | done {w a} : Completes serve w (done a) (.ok a) w
  | fail {w e} : Completes serve w (fail e) (.error e) w
  | await {w op next answer between result last} (served : serve w op answer between)
      (rest : Completes serve between (next answer) result last) :
      Completes serve w (await op next) result last

variable {w last : W} {result : Except ε α}

/-- What every answer keeps, the request keeps. -/
theorem Completes.invariant {I : W → Prop} {x : Process ε Op Res α}
    (keeps : ∀ {w op answer w'}, serve w op answer w' → I w → I w')
    (ran : Completes serve w x result last) (initial : I w) : I last := by
  induction ran with
  | done | fail => exact initial
  | await served _ ih => exact ih (keeps served initial)

/-- Fewer answers, fewer runs. -/
theorem Completes.mono {serve' : W → (op : Op) → Except ε (Res op) → W → Prop} {x : Process ε Op Res α}
    (weaker : ∀ {w op answer w'}, serve w op answer w' → serve' w op answer w')
    (ran : Completes serve w x result last) : Completes serve' w x result last := by
  induction ran with
  | done => exact .done
  | fail => exact .fail
  | await served _ ih => exact .await (weaker served) ih

/-- Where every operation is answered, every process comes to an end. -/
theorem exists_completes (total : ∀ w op, ∃ answer w', serve w op answer w') (p : Process ε Op Res α)
    (w : W) : ∃ result last, Completes serve w p result last := by
  induction p generalizing w with
  | done a => exact ⟨_, w, .done⟩
  | fail e => exact ⟨_, w, .fail⟩
  | await op next ih =>
    obtain ⟨answer, between, served⟩ := total w op
    obtain ⟨result, last, rest⟩ := ih answer between
    exact ⟨result, last, .await served rest⟩

theorem completes_done {a : α} :
    Completes serve w (done a) result last ↔ result = .ok a ∧ last = w := by
  constructor
  · rintro ⟨⟩
    exact ⟨rfl, rfl⟩
  · rintro ⟨rfl, rfl⟩
    exact .done

theorem completes_pure {a : α} :
    Completes serve w (pure a : Process ε Op Res α) result last ↔ result = .ok a ∧ last = w :=
  completes_done

theorem completes_fail {e : ε} :
    Completes serve w (fail e : Process ε Op Res α) result last ↔ result = .error e ∧ last = w := by
  constructor
  · rintro ⟨⟩
    exact ⟨rfl, rfl⟩
  · rintro ⟨rfl, rfl⟩
    exact .fail

theorem completes_await {op : Op} {next : Except ε (Res op) → Process ε Op Res α} :
    Completes serve w (await op next) result last ↔
      ∃ answer between, serve w op answer between ∧ Completes serve between (next answer) result last := by
  constructor
  · rintro ⟨⟩
    exact ⟨_, _, ‹_›, ‹_›⟩
  · rintro ⟨answer, between, served, rest⟩
    exact .await served rest

/-- A composed process fails where its first part does, or goes on from its value. -/
theorem completes_bind {x : Process ε Op Res β} {f : β → Process ε Op Res α} :
    Completes serve w (x >>= f) result last ↔
      (∃ e, result = .error e ∧ Completes serve w x (.error e) last) ∨
      ∃ b between, Completes serve w x (.ok b) between ∧ Completes serve between (f b) result last := by
  change Completes serve w (x.bind f) result last ↔ _
  induction x generalizing w with
  | done b => simp [bind, completes_done, and_assoc]
  | fail e =>
    simp only [bind, completes_fail]
    constructor
    · rintro ⟨rfl, rfl⟩
      exact .inl ⟨e, rfl, rfl, rfl⟩
    · rintro (⟨_, rfl, same, rfl⟩ | ⟨_, _, ⟨contra, _⟩, _⟩)
      · cases same
        exact ⟨rfl, rfl⟩
      · contradiction
  | await op next ih =>
    simp only [bind, completes_await, ih]
    constructor
    · rintro ⟨answer, between, served, ⟨e, rfl, first⟩ | ⟨b, middle, first, rest⟩⟩
      · exact .inl ⟨e, rfl, answer, between, served, first⟩
      · exact .inr ⟨b, middle, ⟨answer, between, served, first⟩, rest⟩
    · rintro (⟨e, rfl, answer, between, served, first⟩ |
        ⟨b, middle, ⟨answer, between, served, first⟩, rest⟩)
      · exact ⟨answer, between, served, .inl ⟨e, rfl, first⟩⟩
      · exact ⟨answer, between, served, .inr ⟨b, middle, first, rest⟩⟩

theorem completes_map {x : Process ε Op Res β} {f : β → α} :
    Completes serve w (f <$> x) result last ↔
      ∃ first, result = first.map f ∧ Completes serve w x first last := by
  refine (completes_bind (x := x) (f := fun b => pure (f b))).trans ?_
  constructor
  · rintro (⟨e, rfl, failed⟩ | ⟨b, between, returned, rest⟩)
    · exact ⟨.error e, rfl, failed⟩
    · obtain ⟨rfl, rfl⟩ := completes_pure.mp rest
      exact ⟨.ok b, rfl, returned⟩
  · rintro ⟨first, rfl, completed⟩
    cases first with
    | error e => exact .inl ⟨e, rfl, completed⟩
    | ok b => exact .inr ⟨b, last, completed, completes_pure.mpr ⟨rfl, rfl⟩⟩

theorem completes_perform {op : Op} {result : Except ε (Res op)} :
    Completes serve w (perform op) result last ↔ serve w op result last := by
  rw [perform, completes_await]
  constructor
  · rintro ⟨answer, between, served, rest⟩
    cases answer with
    | ok value =>
      obtain ⟨rfl, rfl⟩ := completes_done.mp rest
      exact served
    | error e =>
      obtain ⟨rfl, rfl⟩ := completes_fail.mp rest
      exact served
  · intro served
    refine ⟨result, last, served, ?_⟩
    cases result with
    | ok value => exact .done
    | error e => exact .fail

/-- A guard throws, or the process goes on past it. -/
theorem completes_throwIf {condition : Prop} [Decidable condition] {e : ε}
    {rest : Unit → Process ε Op Res α} :
    Completes serve w (throwIf condition e >>= rest) result last ↔
      condition ∧ result = .error e ∧ last = w ∨
      ¬ condition ∧ Completes serve w (rest ()) result last := by
  rw [throwIf]
  split
  · rename_i holds
    rw [show (fail e >>= rest) = fail e from rfl, completes_fail]
    simp [holds]
  · rename_i fails
    rw [show (done () >>= rest) = rest () from rfl]
    simp [fails]

theorem completes_orThrow {value : Option β} {e : ε} {rest : β → Process ε Op Res α} :
    Completes serve w (orThrow value e >>= rest) result last ↔
      value = none ∧ result = .error e ∧ last = w ∨
      ∃ b, value = some b ∧ Completes serve w (rest b) result last := by
  cases value with
  | none =>
    rw [show (orThrow none e >>= rest) = fail e from rfl, completes_fail]
    simp
  | some b =>
    rw [show (orThrow (some b) e >>= rest) = rest b from rfl]
    simp

/-- A caught failure goes on in the handler. -/
theorem completes_tryCatch {x : Process ε Op Res α} {handler : ε → Process ε Op Res α} :
    Completes serve w (x.tryCatch handler) result last ↔
      (∃ a, result = .ok a ∧ Completes serve w x (.ok a) last) ∨
      ∃ e between, Completes serve w x (.error e) between ∧
        Completes serve between (handler e) result last := by
  induction x generalizing w with
  | done a =>
    simp only [tryCatch, completes_done, reduceCtorEq, false_and, exists_false, or_false]
    constructor
    · rintro ⟨rfl, rfl⟩
      exact ⟨a, rfl, rfl, rfl⟩
    · rintro ⟨_, rfl, same, rfl⟩
      exact ⟨same, rfl⟩
  | fail e => simp [tryCatch, completes_fail, and_assoc]
  | await op next ih =>
    simp only [tryCatch, completes_await, ih]
    constructor
    · rintro ⟨answer, between, served, ⟨a, rfl, first⟩ | ⟨e, middle, first, rest⟩⟩
      · exact .inl ⟨a, rfl, answer, between, served, first⟩
      · exact .inr ⟨e, middle, ⟨answer, between, served, first⟩, rest⟩
    · rintro (⟨a, rfl, answer, between, served, first⟩ |
        ⟨e, middle, ⟨answer, between, served, first⟩, rest⟩)
      · exact ⟨answer, between, served, .inl ⟨a, rfl, first⟩⟩
      · exact ⟨answer, between, served, .inr ⟨e, middle, first, rest⟩⟩

/-- A failure that is caught only to be thrown under another name leaves what it left. -/
theorem completes_rethrown {x : Process ε Op Res α} {f : ε → ε} :
    Completes serve w (x.tryCatch fun e => fail (f e)) result last ↔
      ∃ first, result = first.mapError f ∧ Completes serve w x first last := by
  rw [completes_tryCatch]
  constructor
  · rintro (⟨a, rfl, returned⟩ | ⟨e, between, failed, thrown⟩)
    · exact ⟨.ok a, rfl, returned⟩
    · obtain ⟨rfl, rfl⟩ := completes_fail.mp thrown
      exact ⟨.error e, rfl, failed⟩
  · rintro ⟨first, rfl, ran⟩
    cases first with
    | ok a => exact .inl ⟨a, rfl, ran⟩
    | error e => exact .inr ⟨e, last, ran, .fail⟩

end Completes

/-! ### Many requests at once -/

/-- Requests in flight, each with what is left of it, over a shared world. -/
structure Pool (W ρ ε Op : Type) (Res : Op → Type) (α : Type) where
  world : W
  running : List (ρ × Process ε Op Res α)

inductive Event (ρ ε Op : Type) (Res : Op → Type) where
  | start (request : ρ)
  | served (index : Nat) (op : Op) (answer : Except ε (Res op))
  | outside

variable {W ρ : Type}

/-- A request starts, the operation one of them awaits is answered, or the world
moves without them. -/
inductive Pool.Step (handler : ρ → Process ε Op Res α)
    (serve : Nat → W → (op : Op) → Except ε (Res op) → W → Prop) (outside : W → W → Prop) :
    Pool W ρ ε Op Res α → Event ρ ε Op Res → Pool W ρ ε Op Res α → Prop where
  | start {world running} (request : ρ) :
      Step handler serve outside ⟨world, running⟩ (.start request)
        ⟨world, running ++ [(request, handler request)]⟩
  | served {world running index request op next answer after}
      (found : running[index]? = some (request, await op next))
      (answered : serve index world op answer after) :
      Step handler serve outside ⟨world, running⟩ (.served index op answer)
        ⟨after, running.set index (request, next answer)⟩
  | outside {world running after} (moved : outside world after) :
      Step handler serve outside ⟨world, running⟩ .outside ⟨after, running⟩

section Requests
variable {handler : ρ → Process ε Op Res α} {pool pool' : Pool W ρ ε Op Res α}
  {event : Event ρ ε Op Res} {serve : Nat → W → (op : Op) → Except ε (Res op) → W → Prop}
  {outside : W → W → Prop}

/-- A request keeps its place. -/
theorem Pool.Step.request_kept (step : Pool.Step handler serve outside pool event pool') {index : Nat}
    (known : index < pool.running.length) :
    index < pool'.running.length ∧
      pool'.running[index]?.map Prod.fst = pool.running[index]?.map Prod.fst := by
  cases step with
  | start request =>
    dsimp only at known ⊢
    rw [List.length_append, List.getElem?_append_left known]
    exact ⟨by omega, rfl⟩
  | @served world running at' request op next answer after found answered =>
    dsimp only at known ⊢
    rw [List.length_set, List.getElem?_set]
    refine ⟨known, ?_⟩
    split
    · rename_i same
      subst same
      rw [if_pos known, found]
      rfl
    · rfl
  | outside => exact ⟨known, rfl⟩

theorem Pool.Step.request_held (step : Pool.Step handler serve outside pool event pool') {index : Nat}
    {request : ρ} {rest : Process ε Op Res α} (found : pool.running[index]? = some (request, rest)) :
    ∃ rest', pool'.running[index]? = some (request, rest') := by
  obtain ⟨_, same⟩ := step.request_kept (List.getElem?_eq_some_iff.mp found).1
  rw [found] at same
  obtain ⟨⟨_, rest'⟩, there, rfl⟩ := Option.map_eq_some_iff.mp same
  exact ⟨rest', there⟩

theorem Pool.Step.request_before (step : Pool.Step handler serve outside pool event pool') {index : Nat}
    {request : ρ} {rest : Process ε Op Res α} (known : index < pool.running.length)
    (found : pool'.running[index]? = some (request, rest)) :
    ∃ rest', pool.running[index]? = some (request, rest') := by
  obtain ⟨_, same⟩ := step.request_kept known
  rw [found] at same
  obtain ⟨⟨_, rest'⟩, there, rfl⟩ := Option.map_eq_some_iff.mp same.symm
  exact ⟨rest', there⟩

/-- The request that started last is served. -/
theorem Pool.Step.served_last {world after : W} {running : List (ρ × Process ε Op Res α)} {request : ρ} {op : Op}
    {next : Except ε (Res op) → Process ε Op Res α} {answer : Except ε (Res op)}
    (answered : serve running.length world op answer after) :
    Pool.Step handler serve outside ⟨world, running ++ [(request, await op next)]⟩ (.served running.length op answer)
      ⟨after, running ++ [(request, next answer)]⟩ := by
  have step : Pool.Step handler serve outside ⟨world, running ++ [(request, await op next)]⟩
      (.served running.length op answer) _ := .served List.getElem?_concat_length answered
  rw [List.set_append_right _ _ (Nat.le_refl _), Nat.sub_self] at step
  exact step

/-- A request that awaits nothing any more stays as it is. -/
theorem Pool.Step.over_kept (step : Pool.Step handler serve outside pool event pool') {index : Nat} {request : ρ}
    {rest : Process ε Op Res α} (found : pool.running[index]? = some (request, rest))
    (silent : ∀ op next, rest ≠ await op next) : pool'.running[index]? = some (request, rest) := by
  cases step with
  | start => exact Runs.still_at found
  | @served _ _ at' _ op next _ _ waiting =>
    have other : at' ≠ index := by
      rintro rfl
      cases waiting.symm.trans found
      exact silent op next rfl
    rw [List.getElem?_set_ne other]
    exact found
  | outside => exact found

theorem Pool.Step.done_kept (step : Pool.Step handler serve outside pool event pool') {index : Nat} {request : ρ}
    {value : α} (found : pool.running[index]? = some (request, done value)) :
    pool'.running[index]? = some (request, done value) :=
  step.over_kept found (by rintro _ _ ⟨⟩)

/-- What a request meets when it starts and every answer keeps, all requests in flight meet. -/
theorem Pool.Step.each (Good : ρ → Process ε Op Res α → Prop)
    (step : Pool.Step handler serve outside pool event pool')
    (fresh : ∀ request, event = .start request → Good request (handler request))
    (keeps : ∀ index request op next answer, event = .served index op answer →
      serve index pool.world op answer pool'.world → Good request (await op next) →
      Good request (next answer))
    (each : ∀ entry ∈ pool.running, Good entry.1 entry.2) :
    ∀ entry ∈ pool'.running, Good entry.1 entry.2 := by
  intro entry member
  cases step with
  | start request =>
    rcases List.mem_append.mp member with earlier | new
    · exact each entry earlier
    · obtain rfl := List.mem_singleton.mp new
      exact fresh request rfl
  | @served world running index request op next answer after found answered =>
    rcases List.mem_or_eq_of_mem_set member with earlier | rfl
    · exact each entry earlier
    · exact keeps index request op next answer rfl answered (each _ (List.mem_of_getElem? found))
  | outside => exact each entry member

/-- An entry of a list stays where another one is replaced. -/
theorem mem_replaced {A : Type} {entries : List A} {index : Nat} {old entry : A}
    (found : entries[index]? = some old) (member : entry ∈ entries) (other : entry ≠ old) (new : A) :
    entry ∈ entries.set index new := by
  obtain ⟨place, inside, rfl⟩ := List.mem_iff_getElem.mp member
  refine List.mem_iff_getElem.mpr ⟨place, by rwa [List.length_set], ?_⟩
  refine List.getElem_set_ne ?_ _
  rintro rfl
  exact other (Option.some.inj ((List.getElem?_eq_getElem inside).symm.trans found))

/-- Counting after one entry of a list was replaced. -/
theorem countP_replaced {A : Type} {entries : List A} {index : Nat} {old : A} (p : A → Bool)
    (found : entries[index]? = some old) (new : A) :
    (entries.set index new).countP p + (if p old then 1 else 0) =
      entries.countP p + if p new then 1 else 0 := by
  obtain ⟨inside, rfl⟩ := List.getElem?_eq_some_iff.mp found
  rw [List.countP_set inside]
  split
  · rename_i counted
    have : 0 < entries.countP p := List.countP_pos_iff.mpr ⟨_, List.getElem_mem inside, counted⟩
    omega
  · omega

end Requests

/-! ### Computed answers -/

section Computed
variable {serve : W → (op : Op) → Except ε (Res op) → W → Prop}
  {answer : W → (op : Op) → Option (Except ε (Res op) × W)}

/-- The process run to its end on computed answers, if there is one at every await. -/
def exec (answer : W → (op : Op) → Option (Except ε (Res op) × W)) :
    W → Process ε Op Res α → Option (Except ε α × W)
  | w, done a => some (.ok a, w)
  | w, fail e => some (.error e, w)
  | w, await op next =>
      match answer w op with
      | some (given, between) => exec answer between (next given)
      | none => none

variable (serve) in
theorem exec_completes
    (sound : ∀ {w op given between}, answer w op = some (given, between) → serve w op given between)
    {p : Process ε Op Res α} {w last : W} {result : Except ε α}
    (ran : exec answer w p = some (result, last)) : Completes serve w p result last := by
  induction p generalizing w with
  | done a =>
    cases ran
    exact .done
  | fail e =>
    cases ran
    exact .fail
  | await op next ih =>
    rw [exec] at ran
    split at ran
    · rename_i given between answered
      exact .await (sound answered) (ih given ran)
    · contradiction

/-- What a schedule does next. -/
inductive Move (ρ : Type) where
  | start (request : ρ)
  | serve (index : Nat)

/-- One move of a schedule, if the request it serves awaits something. -/
def Pool.play (handler : ρ → Process ε Op Res α)
    (answer : Nat → W → (op : Op) → Option (Except ε (Res op) × W))
    (pool : Pool W ρ ε Op Res α) : Move ρ → Option (Event ρ ε Op Res × Pool W ρ ε Op Res α)
  | .start request =>
      some (.start request, ⟨pool.world, pool.running ++ [(request, handler request)]⟩)
  | .serve index =>
      match pool.running[index]? with
      | some (request, await op next) =>
          (answer index pool.world op).map fun (given, after) =>
            (.served index op given, ⟨after, pool.running.set index (request, next given)⟩)
      | _ => none

/-- The moves of a schedule, with the trace they leave. -/
def Pool.playAll (handler : ρ → Process ε Op Res α)
    (answer : Nat → W → (op : Op) → Option (Except ε (Res op) × W)) (pool : Pool W ρ ε Op Res α) :
    List (Move ρ) → Option (List (Pool W ρ ε Op Res α × Event ρ ε Op Res) × Pool W ρ ε Op Res α)
  | [] => some ([], pool)
  | move :: rest =>
      (pool.play handler answer move).bind fun (event, next) =>
        (next.playAll handler answer rest).map fun (trace, last) => ((pool, event) :: trace, last)

variable {handler : ρ → Process ε Op Res α} {pool pool' : Pool W ρ ε Op Res α}
  {serveAt : Nat → W → (op : Op) → Except ε (Res op) → W → Prop} {outside : W → W → Prop}
  {answerAt : Nat → W → (op : Op) → Option (Except ε (Res op) × W)}

variable (serveAt) in
theorem Pool.play_step {move : Move ρ} {event : Event ρ ε Op Res}
    (sound : ∀ {index w op given between},
      answerAt index w op = some (given, between) → serveAt index w op given between)
    (played : pool.play handler answerAt move = some (event, pool')) :
    Pool.Step handler serveAt outside pool event pool' := by
  obtain ⟨world, running⟩ := pool
  cases move with
  | start request =>
    cases played
    exact .start request
  | serve index =>
    rw [Pool.play] at played
    split at played
    · rename_i request op next found
      obtain ⟨⟨given, after⟩, answered, same⟩ := Option.map_eq_some_iff.mp played
      cases same
      exact .served found (sound answered)
    · contradiction

variable (serveAt) in
theorem Pool.playAll_run {moves : List (Move ρ)}
    {trace : List (Pool W ρ ε Op Res α × Event ρ ε Op Res)}
    (sound : ∀ {index w op given between},
      answerAt index w op = some (given, between) → serveAt index w op given between)
    (played : pool.playAll handler answerAt moves = some (trace, pool')) :
    Runs.Run (Pool.Step handler serveAt outside) pool trace pool' := by
  induction moves generalizing pool trace with
  | nil =>
    cases played
    exact .refl
  | cons move rest ih =>
    obtain ⟨⟨event, next⟩, first, later⟩ := Option.bind_eq_some_iff.mp played
    obtain ⟨⟨after, last⟩, played, same⟩ := Option.map_eq_some_iff.mp later
    cases same
    exact .head (Pool.play_step serveAt sound first) (ih played)

end Computed

end Process
