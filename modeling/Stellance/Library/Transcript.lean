import Stellance.Library.Process

/-! What a process has been told. A script says which operations a process may perform
after which answers, and how it may end; a process that follows its script from the
start follows it in a pool as well, after what it was told there, however the other
requests interleave. -/

namespace Process
variable {ε Op : Type} {Res : Op → Type} {α β : Type}

/-- An operation with the answer it got. -/
abbrev Exchange (ε Op : Type) (Res : Op → Type) := (op : Op) × Except ε (Res op)

/-- However it is answered, the process performs only what it may after what it was
told, and ends as it may. -/
def Follows (may : List (Exchange ε Op Res) → Op → Prop)
    (ends : List (Exchange ε Op Res) → Except ε α → Prop) :
    List (Exchange ε Op Res) → Process ε Op Res α → Prop
  | told, done a => ends told (.ok a)
  | told, fail e => ends told (.error e)
  | told, await op next =>
      may told op ∧ ∀ answer, (next answer).Follows may ends (told ++ [⟨op, answer⟩])

section Follows
variable {may : List (Exchange ε Op Res) → Op → Prop}
  {ends : List (Exchange ε Op Res) → Except ε α → Prop} {told : List (Exchange ε Op Res)}

theorem follows_throwIf {condition : Prop} [Decidable condition] {e : ε}
    {rest : Unit → Process ε Op Res α} (thrown : condition → ends told (.error e))
    (passed : ¬ condition → (rest ()).Follows may ends told) :
    (throwIf condition e >>= rest).Follows may ends told :=
  throwIf_ind thrown passed

theorem follows_orThrow {value : Option β} {e : ε} {rest : β → Process ε Op Res α}
    (thrown : value = none → ends told (.error e))
    (passed : ∀ b, value = some b → (rest b).Follows may ends told) :
    (orThrow value e >>= rest).Follows may ends told :=
  orThrow_ind thrown passed

theorem follows_bind {x : Process ε Op Res β} {f : β → Process ε Op Res α}
    {B : List (Exchange ε Op Res) → Except ε β → Prop} (first : x.Follows may B told)
    (failed : ∀ told e, B told (.error e) → ends told (.error e))
    (rest : ∀ told b, B told (.ok b) → (f b).Follows may ends told) :
    (x >>= f).Follows may ends told := by
  change (x.bind f).Follows may ends told
  induction x generalizing told with
  | done b => exact rest told b first
  | fail e => exact failed told e first
  | await op next ih => exact ⟨first.1, fun answer => ih answer (first.2 answer)⟩

/-- A part that does nothing bad, where all but the bad is allowed, and what comes after it. -/
theorem follows_past {x : Process ε Op Res β} {f : β → Process ε Op Res α} {bad : Op → Prop}
    (quiet : x.Never bad) (allowed : ∀ told op, ¬ bad op → may told op)
    (failed : ∀ told e, ends told (.error e)) (rest : ∀ more b, (f b).Follows may ends (told ++ more)) :
    (x >>= f).Follows may ends told := by
  change (x.bind f).Follows may ends told
  induction x generalizing told with
  | done b =>
    have last := rest [] b
    rw [List.append_nil] at last
    exact last
  | fail e => exact failed told e
  | await op next ih =>
    refine ⟨allowed told op quiet.1, fun answer => ih answer (quiet.2 answer) fun more b => ?_⟩
    rw [List.append_assoc]
    exact rest _ b

/-- The same for a process that does nothing bad to its end. -/
theorem follows_never {p : Process ε Op Res α} {bad : Op → Prop} (quiet : p.Never bad)
    (allowed : ∀ told op, ¬ bad op → may told op) (ended : ∀ told result, ends told result) :
    p.Follows may ends told := by
  induction p generalizing told with
  | done | fail => exact ended told _
  | await op next ih => exact ⟨allowed told op quiet.1, fun answer => ih answer (quiet.2 answer)⟩

theorem follows_map {x : Process ε Op Res β} {f : β → α}
    (first : x.Follows may (fun told result => ends told (result.map f)) told) :
    (f <$> x).Follows may ends told :=
  follows_bind first (fun _ _ failed => failed) fun _ _ returned => returned

theorem follows_perform {op : Op} {rest : Res op → Process ε Op Res α} (allowed : may told op)
    (failed : ∀ e, ends (told ++ [⟨op, .error e⟩]) (.error e))
    (goes : ∀ value, (rest value).Follows may ends (told ++ [⟨op, .ok value⟩])) :
    (perform op >>= rest).Follows may ends told := by
  refine ⟨allowed, fun answer => ?_⟩
  cases answer with
  | ok value => exact goes value
  | error e => exact failed e

theorem follows_tryCatch {x : Process ε Op Res α} {handler : ε → Process ε Op Res α}
    {B : List (Exchange ε Op Res) → Except ε α → Prop} (first : x.Follows may B told)
    (returned : ∀ told a, B told (.ok a) → ends told (.ok a))
    (caught : ∀ told e, B told (.error e) → (handler e).Follows may ends told) :
    (x.tryCatch handler).Follows may ends told := by
  induction x generalizing told with
  | done a => exact returned told a first
  | fail e => exact caught told e first
  | await op next ih => exact ⟨first.1, fun answer => ih answer (first.2 answer)⟩

theorem Follows.mono {ends' : List (Exchange ε Op Res) → Except ε α → Prop} {p : Process ε Op Res α}
    (follows : p.Follows may ends told) (weaker : ∀ told result, ends told result → ends' told result) :
    p.Follows may ends' told := by
  induction p generalizing told with
  | done | fail => exact weaker _ _ follows
  | await op next ih => exact ⟨follows.1, fun answer => ih answer (follows.2 answer)⟩

theorem Follows.allow {may' : List (Exchange ε Op Res) → Op → Prop} {p : Process ε Op Res α}
    (follows : p.Follows may ends told) (wider : ∀ told op, may told op → may' told op) :
    p.Follows may' ends told := by
  induction p generalizing told with
  | done | fail => exact follows
  | await op next ih => exact ⟨wider _ _ follows.1, fun answer => ih answer (follows.2 answer)⟩

/-- However it goes on, a process ends as anything that was told this may. -/
theorem follows_ends {p : Process ε Op Res α} (always : ∀ later result, ends (told ++ later) result) :
    p.Follows (fun _ _ => True) ends told := by
  induction p generalizing told with
  | done a =>
    have ended := always [] (.ok a)
    rw [List.append_nil] at ended
    exact ended
  | fail e =>
    have ended := always [] (.error e)
    rw [List.append_nil] at ended
    exact ended
  | await op next ih =>
    refine ⟨trivial, fun answer => ih answer fun later result => ?_⟩
    rw [List.append_assoc]
    exact always _ result

/-- What the script no longer allows is not performed any more. -/
theorem Follows.never {bad : Op → Prop} {p : Process ε Op Res α} (follows : p.Follows may ends told)
    (clean : ∀ later op, bad op → ¬ may (told ++ later) op) : p.Never bad := by
  induction p generalizing told with
  | done | fail => trivial
  | await op next ih =>
    refine ⟨fun isBad => clean [] op isBad (by simpa using follows.1), fun answer => ?_⟩
    refine ih answer (follows.2 answer) fun later op isBad => ?_
    rw [List.append_assoc]
    exact clean _ op isBad

end Follows

/-- What is left of a process after it was told this. -/
inductive Leads : Process ε Op Res α → List (Exchange ε Op Res) → Process ε Op Res α → Prop where
  | refl (p : Process ε Op Res α) : Leads p [] p
  | step {op : Op} {next : Except ε (Res op) → Process ε Op Res α} {answer : Except ε (Res op)}
      {told : List (Exchange ε Op Res)} {q : Process ε Op Res α} (rest : Leads (next answer) told q) :
      Leads (await op next) (⟨op, answer⟩ :: told) q

namespace Leads
variable {p q : Process ε Op Res α} {told : List (Exchange ε Op Res)}

theorem snoc {op : Op} {next : Except ε (Res op) → Process ε Op Res α} {answer : Except ε (Res op)}
    (leads : p.Leads told (await op next)) : p.Leads (told ++ [⟨op, answer⟩]) (next answer) := by
  generalize waiting : await op next = q at leads
  induction leads with
  | refl =>
    subst waiting
    exact .step (.refl _)
  | step _ ih => exact .step (ih waiting)

theorem follows {may : List (Exchange ε Op Res) → Op → Prop}
    {ends : List (Exchange ε Op Res) → Except ε α → Prop} {before : List (Exchange ε Op Res)}
    (leads : p.Leads told q) (follows : p.Follows may ends before) :
    q.Follows may ends (before ++ told) := by
  induction leads generalizing before with
  | refl => simpa using follows
  | @step op next answer told q _ ih =>
    have rest := ih (follows.2 answer)
    rw [List.append_assoc] at rest
    exact rest

end Leads

/-! ### In a pool -/

variable {W ρ : Type} {pool start : Pool W ρ ε Op Res α}

/-- What an event tells the request at an index. -/
def Event.tells (index : Nat) : Event ρ ε Op Res → Option (Exchange ε Op Res)
  | .served at' op answer => if at' = index then some ⟨op, answer⟩ else none
  | _ => none

/-- What a request was told in the course of a run. -/
def told (index : Nat) (trace : List (Pool W ρ ε Op Res α × Event ρ ε Op Res)) :
    List (Exchange ε Op Res) :=
  trace.filterMap fun point => point.2.tells index

section Told
variable {index : Nat} {trace : List (Pool W ρ ε Op Res α × Event ρ ε Op Res)}
  {event : Event ρ ε Op Res} {handler : ρ → Process ε Op Res α}
  {serve : Nat → W → (op : Op) → Except ε (Res op) → W → Prop} {outside : W → W → Prop}

theorem told_step : told index (trace ++ [(pool, event)]) =
    told index trace ++ (event.tells index).toList := by
  unfold told
  rw [List.filterMap_append]
  cases tells : event.tells index <;> simp [tells]

theorem tells_eq_some {exchange : Exchange ε Op Res} : event.tells index = some exchange ↔
    event = .served index exchange.1 exchange.2 := by
  cases event with
  | start | outside => exact iff_of_false nofun nofun
  | served at' op answer =>
    change (if at' = index then some (⟨op, answer⟩ : Exchange ε Op Res) else none) = _ ↔ _
    constructor
    · intro tells
      obtain ⟨rfl, same⟩ := Option.ite_none_right_eq_some.mp tells
      cases same
      rfl
    · rintro ⟨⟩
      exact if_pos rfl

theorem mem_told {exchange : Exchange ε Op Res} : exchange ∈ told index trace ↔
    ∃ point ∈ trace, point.2 = .served index exchange.1 exchange.2 := by
  unfold told
  rw [List.mem_filterMap]
  simp only [tells_eq_some]

/-- What was told stays told. -/
theorem told_more {rest : List (Pool W ρ ε Op Res α × Event ρ ε Op Res)} {exchange : Exchange ε Op Res}
    (member : exchange ∈ told index trace) : exchange ∈ told index (trace ++ rest) := by
  obtain ⟨point, inside, tells⟩ := mem_told.mp member
  exact mem_told.mpr ⟨point, List.mem_append_left _ inside, tells⟩

/-- What a request is told before an event, in it and after it. -/
theorem told_cut {rest : List (Pool W ρ ε Op Res α × Event ρ ε Op Res)} {op : Op}
    {answer : Except ε (Res op)} : told index (trace ++ (pool, .served index op answer) :: rest) =
      told index trace ++ ⟨op, answer⟩ :: told index rest := by
  unfold told
  rw [List.filterMap_append, List.filterMap_cons]
  simp [Event.tells]

/-- Nobody was told anything before the start. -/
theorem run_told_absent (run : Runs.Run (Pool.Step handler serve outside) start trace pool)
    (absent : pool.running.length ≤ index) : told index trace = [] := by
  induction run with
  | refl => rfl
  | tail run step ih =>
    rw [told_step]
    cases step with
    | start request =>
      rw [List.length_append] at absent
      rw [ih (by dsimp only; omega)]
      rfl
    | @served world running at' request op next answer after found answered =>
      rw [List.length_set] at absent
      have inside : at' < running.length := (List.getElem?_eq_some_iff.mp found).1
      rw [ih absent]
      exact congrArg Option.toList (if_neg (by omega))
    | outside =>
      rw [ih absent]
      rfl

/-- What is left of a request is what its answers have left of it. -/
theorem run_leads (run : Runs.Run (Pool.Step handler serve outside) start trace pool)
    (idle : start.running = []) {request : ρ} {rest : Process ε Op Res α}
    (found : pool.running[index]? = some (request, rest)) :
    (handler request).Leads (told index trace) rest := by
  induction run generalizing request rest with
  | refl =>
    rw [idle] at found
    contradiction
  | tail run step ih =>
    rw [told_step]
    cases step with
    | @start world running started =>
      rw [show (Event.start started : Event ρ ε Op Res).tells index = none from rfl, Option.toList_none,
        List.append_nil]
      rcases Runs.concat_at found with ⟨_, found⟩ | ⟨rfl, same⟩
      · exact ih found
      · cases same
        rw [run_told_absent run (Nat.le_refl _)]
        exact .refl _
    | @served world running at' _ op next answer after found' answered =>
      rw [List.getElem?_set] at found
      by_cases here : at' = index
      · subst here
        rw [if_pos rfl, if_pos (List.getElem?_eq_some_iff.mp found').1] at found
        cases found
        rw [show (Event.served at' op answer : Event ρ ε Op Res).tells at' = some ⟨op, answer⟩ from
          if_pos rfl]
        exact (ih found').snoc
      · rw [if_neg here] at found
        rw [show (Event.served at' op answer : Event ρ ε Op Res).tells index = none from if_neg here,
          Option.toList_none, List.append_nil]
        exact ih found
    | outside =>
      rw [show (Event.outside : Event ρ ε Op Res).tells index = none from rfl, Option.toList_none,
        List.append_nil]
      exact ih found

/-- What is left of a request follows its script after what the request was told. -/
theorem run_follows {may : ρ → List (Exchange ε Op Res) → Op → Prop}
    {ends : ρ → List (Exchange ε Op Res) → Except ε α → Prop}
    (run : Runs.Run (Pool.Step handler serve outside) start trace pool) (idle : start.running = [])
    (scripted : ∀ request, (handler request).Follows (may request) (ends request) [])
    {request : ρ} {rest : Process ε Op Res α} (found : pool.running[index]? = some (request, rest)) :
    rest.Follows (may request) (ends request) (told index trace) :=
  (run_leads run idle found).follows (scripted request)

variable {steps : List (Pool W ρ ε Op Res α × Event ρ ε Op Res)} {n : Nat}

/-- What was told was told at some point. -/
theorem told_at {exchange : Exchange ε Op Res} : exchange ∈ told index steps ↔
    ∃ (n : Nat) (pool' : Pool W ρ ε Op Res α),
      steps[n]? = some (pool', .served index exchange.1 exchange.2) := by
  rw [mem_told]
  constructor
  · rintro ⟨⟨pool', event⟩, point, served⟩
    obtain ⟨n, here⟩ := List.mem_iff_getElem?.mp point
    dsimp only at served
    exact ⟨n, pool', served ▸ here⟩
  · rintro ⟨n, pool', here⟩
    exact ⟨_, List.mem_iff_getElem?.mpr ⟨n, here⟩, rfl⟩

/-- What was told by some point was told at a point before. -/
theorem told_take {exchange : Exchange ε Op Res} (member : exchange ∈ told index (steps.take n)) :
    ∃ m < n, ∃ pool', steps[m]? = some (pool', .served index exchange.1 exchange.2) := by
  obtain ⟨m, pool', here⟩ := told_at.mp member
  rw [List.getElem?_take] at here
  split at here
  · rename_i before
    exact ⟨m, before, pool', here⟩
  · contradiction

theorem mem_told_take {op : Op} {answer : Except ε (Res op)} {m : Nat} {pool' : Pool W ρ ε Op Res α}
    (here : steps[n]? = some (pool', .served index op answer)) (before : n < m) :
    (⟨op, answer⟩ : Exchange ε Op Res) ∈ told index (steps.take m) := by
  refine told_at.mpr ⟨n, pool', ?_⟩
  rw [List.getElem?_take, if_pos before]
  exact here

theorem cut_position {A : Type} {whole earlier rest : List A} {point : A}
    (cut : whole = earlier ++ point :: rest) :
    whole[earlier.length]? = some point ∧ whole.take earlier.length = earlier := by
  subst cut
  constructor
  · rw [List.getElem?_append_right (Nat.le_refl _), Nat.sub_self]
    rfl
  · exact List.take_left

/-- An operation is performed after what its request had been told by then. -/
theorem run_script {may : ρ → List (Exchange ε Op Res) → Op → Prop}
    {ends : ρ → List (Exchange ε Op Res) → Except ε α → Prop} {op : Op} {answer : Except ε (Res op)}
    (run : Runs.Run (Pool.Step handler serve outside) start steps pool) (idle : start.running = [])
    (scripted : ∀ request, (handler request).Follows (may request) (ends request) [])
    {pool' : Pool W ρ ε Op Res α} (here : steps[n]? = some (pool', .served index op answer)) :
    ∃ request next, pool'.running[index]? = some (request, await op next) ∧
      may request (told index (steps.take n)) op := by
  obtain ⟨before, _, step, _⟩ := run.pass here
  cases step with
  | @served world running _ request _ next _ _ found answered =>
    exact ⟨request, next, found, (run_follows before idle scripted found).1⟩

/-- A request keeps its place in the course of a run. -/
theorem run_request_kept {request : ρ} {rest : Process ε Op Res α}
    (run : Runs.Run (Pool.Step handler serve outside) start trace pool)
    (found : start.running[index]? = some (request, rest)) :
    ∃ rest', pool.running[index]? = some (request, rest') := by
  induction run with
  | refl => exact ⟨rest, found⟩
  | tail _ step ih =>
    obtain ⟨rest', there⟩ := ih
    exact step.request_held there

/-- A request that awaits nothing any more stays as it is to the end. -/
theorem run_over_kept {request : ρ} {rest : Process ε Op Res α}
    (run : Runs.Run (Pool.Step handler serve outside) start trace pool)
    (found : start.running[index]? = some (request, rest)) (silent : ∀ op next, rest ≠ await op next) :
    pool.running[index]? = some (request, rest) := by
  induction run with
  | refl => exact found
  | tail _ step ih => exact step.over_kept ih silent

/-- A request in flight was started at some point, after those with a lower index. -/
theorem run_started {request : ρ} {rest : Process ε Op Res α}
    (run : Runs.Run (Pool.Step handler serve outside) start steps pool) (idle : start.running = [])
    (found : pool.running[index]? = some (request, rest)) :
    ∃ (n : Nat) (pool' : Pool W ρ ε Op Res α), steps[n]? = some (pool', .start request) ∧
      pool'.running.length = index := by
  induction run generalizing request rest with
  | refl =>
    rw [idle] at found
    contradiction
  | @tail earlier before event _ run step ih =>
    have longer : ∀ {request' : ρ}, (∃ (n : Nat) (pool' : Pool W ρ ε Op Res α),
        earlier[n]? = some (pool', .start request') ∧ pool'.running.length = index) →
        ∃ (n : Nat) (pool' : Pool W ρ ε Op Res α),
          (earlier ++ [(before, event)])[n]? = some (pool', .start request') ∧ pool'.running.length = index := by
      rintro request' ⟨n, pool', here, first⟩
      exact ⟨n, pool', Runs.still_at here, first⟩
    rcases Nat.lt_or_ge index before.running.length with known | new
    · obtain ⟨_, there⟩ := step.request_before known found
      exact longer (ih there)
    · cases step with
      | @start _ running request' =>
        rcases Runs.concat_at found with ⟨known, _⟩ | ⟨rfl, same⟩
        · exact absurd new (Nat.not_le_of_lt known)
        · cases same
          exact ⟨earlier.length, _, List.getElem?_concat_length, rfl⟩
      | @served _ _ at' =>
        rw [List.getElem?_eq_none (by rwa [List.length_set])] at found
        contradiction
      | outside =>
        rw [List.getElem?_eq_none new] at found
        contradiction

end Told

end Process
