import Mathlib.Algebra.BigOperators.Group.Finset.Basic
import Mathlib.Algebra.BigOperators.Group.Finset.Piecewise
import Mathlib.Data.List.Perm.Basic
import Stellance.Library.Transcript

/-! Interleaved requests and requests that take turns. An order of turns is read off a run by
picking one step of each request; where every picked step is a whole turn of its request and
the others are none, the turns in that order lead to where the run leads. -/

namespace Runs.Run
variable {S L A K : Type} {step : S → L → S → Prop} {s t : S} {trace : List (S × L)}

/-- Simulation where the labels say which steps are answered, and by whom. -/
theorem picked (turn : A → K → A → Prop) (pick : L → Option K) (Related : List (S × L) → S → A → Prop)
    (run : Run step s trace t)
    (stutters : ∀ {earlier point rest u a}, trace = earlier ++ point :: rest →
      Run step s earlier point.1 → step point.1 point.2 u → pick point.2 = none →
      Related earlier point.1 a → Related (earlier ++ [point]) u a)
    (turns : ∀ {earlier point rest u a k}, trace = earlier ++ point :: rest →
      Run step s earlier point.1 → step point.1 point.2 u → pick point.2 = some k →
      Related earlier point.1 a → ∃ b, turn a k b ∧ Related (earlier ++ [point]) u b)
    {a : A} (initial : Related [] s a) :
    ∃ order b, Run turn a order b ∧
      order.map Prod.snd = trace.filterMap (fun point => pick point.2) ∧ Related trace t b := by
  suffices reaches : ∀ earlier rest u, trace = earlier ++ rest → Run step s earlier u →
      ∃ order b, Run turn a order b ∧
        order.map Prod.snd = earlier.filterMap (fun point => pick point.2) ∧ Related earlier u b from
    reaches trace [] t (List.append_nil _).symm run
  intro earlier
  induction earlier using List.reverseRecOn with
  | nil =>
    intro rest u _ first
    obtain rfl := first.eq_of_nil
    exact ⟨[], a, .refl, rfl, initial⟩
  | append_singleton earlier point ih =>
    intro rest u cut first
    rw [List.append_assoc] at cut
    obtain ⟨before, taken⟩ := first.last
    obtain ⟨order, b, turned, same, related⟩ := ih _ _ cut before
    rw [List.filterMap_append, ← same]
    cases picked : pick point.2 with
    | none =>
      refine ⟨order, b, turned, ?_, stutters cut before taken picked related⟩
      simp [picked]
    | some k =>
      obtain ⟨c, turn, related⟩ := turns cut before taken picked related
      refine ⟨order ++ [(b, k)], c, turned.tail turn, ?_, related⟩
      simp [picked]

end Runs.Run

namespace Process
variable {ε Op : Type} {Res : Op → Type} {α β W ρ : Type}

/-! ### A request on its own -/

/-- The operations, answered one after another. -/
inductive Answers (serve : W → (op : Op) → Except ε (Res op) → W → Prop) :
    W → List (Exchange ε Op Res) → W → Prop where
  | nil (w : W) : Answers serve w [] w
  | cons {w between last : W} {op : Op} {answer : Except ε (Res op)} {rest : List (Exchange ε Op Res)}
      (served : serve w op answer between) (later : Answers serve between rest last) :
      Answers serve w (⟨op, answer⟩ :: rest) last

/-- A process that has ended. -/
def ended : Except ε α → Process ε Op Res α
  | .ok a => done a
  | .error e => fail e

theorem ended_injective {first second : Except ε α}
    (same : (ended first : Process ε Op Res α) = ended second) : first = second := by
  cases first <;> cases second <;> cases same <;> rfl

theorem follows_ended {may : List (Exchange ε Op Res) → Op → Prop}
    {ends : List (Exchange ε Op Res) → Except ε α → Prop} {told : List (Exchange ε Op Res)}
    {result : Except ε α} : (ended result).Follows may ends told ↔ ends told result := by
  cases result <;> rfl

section Alone
variable {serve : W → (op : Op) → Except ε (Res op) → W → Prop} {w last : W} {result : Except ε α}
  {p : Process ε Op Res α} {told : List (Exchange ε Op Res)}

theorem Answers.completes (answers : Answers serve w told last) (leads : p.Leads told (ended result)) :
    Completes serve w p result last := by
  induction answers generalizing p with
  | nil =>
    cases leads
    cases result with
    | ok => exact .done
    | error => exact .fail
  | cons served _ ih =>
    cases leads with
    | step rest => exact .await served (ih rest)

theorem Answers.split {before after : List (Exchange ε Op Res)}
    (answers : Answers serve w (before ++ after) last) :
    ∃ between, Answers serve w before between ∧ Answers serve between after last := by
  induction before generalizing w with
  | nil => exact ⟨w, .nil w, answers⟩
  | cons _ _ ih =>
    cases answers with
    | cons served later =>
      obtain ⟨between, first, rest⟩ := ih later
      exact ⟨between, .cons served first, rest⟩

/-- The state in which an operation was answered. -/
theorem Answers.cut {before after : List (Exchange ε Op Res)} {op : Op} {answer : Except ε (Res op)}
    (answers : Answers serve w (before ++ ⟨op, answer⟩ :: after) last) :
    ∃ here next, Answers serve w before here ∧ serve here op answer next ∧ Answers serve next after last := by
  obtain ⟨here, first, rest⟩ := answers.split
  cases rest with
  | cons served later => exact ⟨here, _, first, served, later⟩

theorem Answers.invariant {I : W → Prop} (keeps : ∀ {w op answer w'}, serve w op answer w' → I w → I w')
    (answers : Answers serve w told last) (initial : I w) : I last := by
  induction answers with
  | nil => exact initial
  | cons served _ ih => exact ih (keeps served initial)

/-- What a request was told on its way. -/
theorem Completes.answers (completes : Completes serve w p result last) :
    ∃ told, Answers serve w told last ∧ p.Leads told (ended result) := by
  induction completes with
  | done | fail => exact ⟨[], .nil _, .refl _⟩
  | await served _ ih =>
    obtain ⟨told, answers, leads⟩ := ih
    exact ⟨_ :: told, .cons served answers, .step leads⟩

/-- A request that runs alone may do so in the midst of others. -/
theorem Completes.run {handler : ρ → Process ε Op Res α} {outside : W → W → Prop}
    {serves : Nat → W → (op : Op) → Except ε (Res op) → W → Prop} {running : List (ρ × Process ε Op Res α)}
    {index : Nat} {request : ρ} (completes : Completes (serves index) w p result last)
    (found : running[index]? = some (request, p)) :
    ∃ trace, Runs.Run (Pool.Step handler serves outside) ⟨w, running⟩ trace
      ⟨last, running.set index (request, ended result)⟩ := by
  have unchanged : ∀ {running : List (ρ × Process ε Op Res α)} {entry},
      running[index]? = some entry → running.set index entry = running := by
    intro running entry found
    obtain ⟨inside, rfl⟩ := List.getElem?_eq_some_iff.mp found
    exact List.set_getElem_self inside
  induction completes generalizing running with
  | done | fail => exact ⟨[], by rw [ended, unchanged found]; exact .refl⟩
  | await served _ ih =>
    obtain ⟨inside, _⟩ := List.getElem?_eq_some_iff.mp found
    obtain ⟨trace, run⟩ := ih (List.getElem?_set_self inside)
    rw [List.set_set] at run
    exact ⟨_, .head (.served found served) run⟩

theorem leads_throwIf {condition : Prop} [Decidable condition] {e : ε} {rest : Unit → Process ε Op Res α}
    (thrown : condition) : (throwIf condition e >>= rest).Leads [] (fail e) := by
  rw [throwIf, if_pos thrown]
  exact .refl _

theorem leads_past {condition : Prop} [Decidable condition] {e : ε} {rest : Unit → Process ε Op Res α}
    {q : Process ε Op Res α} (passed : ¬ condition) (leads : (rest ()).Leads told q) :
    (throwIf condition e >>= rest).Leads told q := by
  rw [throwIf, if_neg passed]
  exact leads

theorem leads_perform {op : Op} {value : Res op} {rest : Res op → Process ε Op Res α}
    {q : Process ε Op Res α} (leads : (rest value).Leads told q) :
    (perform op >>= rest).Leads (⟨op, .ok value⟩ :: told) q :=
  .step leads

theorem leads_orThrow {b : β} {e : ε} {rest : β → Process ε Op Res α} {q : Process ε Op Res α}
    (leads : (rest b).Leads told q) : (orThrow (some b) e >>= rest).Leads told q :=
  leads

theorem Leads.bind {x : Process ε Op Res β} {f : β → Process ε Op Res α}
    {q : Process ε Op Res β} (leads : x.Leads told q) : (x >>= f).Leads told (q >>= f) := by
  induction leads with
  | refl => exact .refl _
  | step _ ih => exact .step ih

theorem Leads.map {x : Process ε Op Res β} {f : β → α} {result : Except ε β}
    (leads : x.Leads told (ended result)) : (f <$> x).Leads told (ended (result.map f)) := by
  have ends : (f <$> ended result : Process ε Op Res α) = ended (result.map f) := by
    cases result <;> rfl
  rw [← ends]
  exact leads.bind

theorem Leads.append {q r : Process ε Op Res α} {later : List (Exchange ε Op Res)}
    (leads : p.Leads told q) (onwards : q.Leads later r) : p.Leads (told ++ later) r := by
  induction leads with
  | refl => exact onwards
  | step _ ih => exact .step (ih onwards)

/-- What is told next answers what the process waits for. -/
theorem Leads.cut {q : Process ε Op Res α} {before after : List (Exchange ε Op Res)} {op : Op}
    {answer : Except ε (Res op)} (leads : p.Leads (before ++ ⟨op, answer⟩ :: after) q) :
    ∃ next, p.Leads before (await op next) := by
  induction before generalizing p with
  | nil =>
    cases leads with
    | step => exact ⟨_, .refl _⟩
  | cons _ _ ih =>
    cases leads with
    | step rest =>
      obtain ⟨next, leads⟩ := ih rest
      exact ⟨next, .step leads⟩

/-- A first part that returns, and what goes on from there. -/
theorem Leads.onwards {x : Process ε Op Res β} {b : β} {f : β → Process ε Op Res α}
    {q : Process ε Op Res α} {later : List (Exchange ε Op Res)} (leads : x.Leads told (done b))
    (rest : (f b).Leads later q) : (x >>= f).Leads (told ++ later) q :=
  leads.bind.append rest

end Alone

/-! ### What all requests were told -/

section Counting
variable {handler : ρ → Process ε Op Res α} {outside : W → W → Prop}
  {serve : Nat → W → (op : Op) → Except ε (Res op) → W → Prop} {start pool : Pool W ρ ε Op Res α}
  {trace : List (Pool W ρ ε Op Res α × Event ρ ε Op Res)}

/-- The exchange of an event, if it is one. -/
def Event.exchange : Event ρ ε Op Res → Option (Exchange ε Op Res)
  | .served _ op answer => some ⟨op, answer⟩
  | _ => none

/-- How many exchanges of a kind a run has. -/
def exchanges (p : Exchange ε Op Res → Bool)
    (trace : List (Pool W ρ ε Op Res α × Event ρ ε Op Res)) : Nat :=
  trace.countP fun point => point.2.exchange.any p

theorem exchanges_step {p : Exchange ε Op Res → Bool} {event : Event ρ ε Op Res} :
    exchanges p (trace ++ [(pool, event)]) =
      exchanges p trace + if event.exchange.any p then 1 else 0 := by
  unfold exchanges
  rw [List.countP_append, List.countP_singleton]

/-- They are counted request by request. -/
theorem exchanges_told (p : Exchange ε Op Res → Bool)
    (run : Runs.Run (Pool.Step handler serve outside) start trace pool) (idle : start.running = []) :
    exchanges p trace = ∑ index ∈ Finset.range pool.running.length, (told index trace).countP p := by
  induction run with
  | refl =>
    rw [idle]
    rfl
  | tail run step ih =>
    rw [exchanges_step, ih]
    simp only [told_step, List.countP_append]
    cases step with
    | @start world running request =>
      have absent := run_told_absent run (Nat.le_refl running.length)
      rw [List.length_append, List.length_singleton, Finset.sum_range_succ, absent]
      simp [Event.tells, Event.exchange]
    | @served world running at' request op next answer after found answered =>
      have inside : at' < running.length := (List.getElem?_eq_some_iff.mp found).1
      have each : ∀ index, ((Event.served at' op answer : Event ρ ε Op Res).tells index).toList.countP p =
          if at' = index then (if p ⟨op, answer⟩ then 1 else 0) else 0 := by
        intro index
        by_cases here : at' = index <;> simp [Event.tells, here]
      simp only [each, List.length_set, Finset.sum_add_distrib]
      rw [Finset.sum_ite_eq, if_pos (Finset.mem_range.mpr inside)]
      rfl
    | outside => simp [Event.tells, Event.exchange]

end Counting

/-! ### The order of the turns -/

section Order
variable {trace : List (Pool W ρ ε Op Res α × Event ρ ε Op Res)} {index : Nat}
  {commits : Nat → Exchange ε Op Res → Bool}

/-- Whose turn an event is. -/
def Event.turn (commits : Nat → Exchange ε Op Res → Bool) : Event ρ ε Op Res → Option Nat
  | .served index op answer => if commits index ⟨op, answer⟩ then some index else none
  | _ => none

theorem turn_some {event : Event ρ ε Op Res} : event.turn commits = some index ↔
    ∃ op answer, event = .served index op answer ∧ commits index ⟨op, answer⟩ = true := by
  cases event with
  | start | outside => exact iff_of_false nofun nofun
  | served at' op answer =>
    change (if commits at' ⟨op, answer⟩ then some at' else none) = some index ↔ _
    rw [Option.ite_none_right_eq_some]
    constructor
    · rintro ⟨commits', same⟩
      cases same
      exact ⟨op, answer, rfl, commits'⟩
    · rintro ⟨_, _, same, commits'⟩
      cases same
      exact ⟨commits', rfl⟩

/-- There is one way to cut a list at the only element of a kind. -/
theorem cut_unique {A : Type} {c : A → Bool} {x y : A} {before before' after after' : List A}
    (same : before ++ x :: after = before' ++ y :: after') (here : c x = true)
    (first : ∀ a ∈ before', c a = false) (last : ∀ a ∈ after', c a = false) :
    before = before' ∧ x = y ∧ after = after' := by
  induction before generalizing before' with
  | nil =>
    cases before' with
    | nil =>
      obtain ⟨rfl, rfl⟩ := List.cons_eq_cons.mp same
      exact ⟨rfl, rfl, rfl⟩
    | cons b before' =>
      obtain ⟨rfl, _⟩ := List.cons_eq_cons.mp same
      rw [first x List.mem_cons_self] at here
      contradiction
  | cons a before ih =>
    cases before' with
    | nil =>
      obtain ⟨rfl, rfl⟩ := List.cons_eq_cons.mp same
      rw [last x (List.mem_append_right _ List.mem_cons_self)] at here
      contradiction
    | cons b before' =>
      obtain ⟨rfl, rest⟩ := List.cons_eq_cons.mp same
      obtain ⟨rfl, rfl, rfl⟩ := ih rest fun a member => first a (List.mem_cons_of_mem _ member)
      exact ⟨rfl, rfl, rfl⟩

/-- A request has as many turns as it was told exchanges that are one. -/
theorem count_turns : (trace.filterMap fun point => point.2.turn commits).count index =
    (told index trace).countP (commits index) := by
  induction trace using List.reverseRecOn with
  | nil => rfl
  | append_singleton trace point ih =>
    obtain ⟨pool, event⟩ := point
    rw [List.filterMap_append, List.count_append, told_step, List.countP_append, ih]
    congr 1
    cases event with
    | start | outside => rfl
    | served at' op answer =>
      by_cases here : at' = index
      · subst here
        cases turn : commits at' ⟨op, answer⟩ <;> simp [Event.turn, Event.tells, turn]
      · cases turn : commits at' ⟨op, answer⟩ <;> simp [Event.turn, Event.tells, turn, here]

end Order

end Process
