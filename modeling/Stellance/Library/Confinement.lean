import Stellance.Library.Reliance

/-! Requests that belong to someone. Where every answer leaves alone what others can see, and
depends on nothing else that is told apart, the part of a run that one owner sees is a run of
the owner's requests alone. -/
namespace Process
variable {ε Op : Type} {Res : Op → Type} {α β : Type}

/-- Answers that count as the same lead the process on to the same. -/
def Blind (same : (op : Op) → Except ε (Res op) → Except ε (Res op) → Prop) : Process ε Op Res α → Prop
  | done _ | fail _ => True
  | await op next => (∀ a b, same op a b → next a = next b) ∧ ∀ answer, (next answer).Blind same

section Blind
variable {same : (op : Op) → Except ε (Res op) → Except ε (Res op) → Prop}

theorem blind_bind {x : Process ε Op Res β} {f : β → Process ε Op Res α} (first : x.Blind same)
    (rest : ∀ b, (f b).Blind same) : (x >>= f).Blind same := by
  change (x.bind f).Blind same
  induction x with
  | done b => exact rest b
  | fail e => trivial
  | await op next ih =>
    refine ⟨fun a b alike => ?_, fun answer => ih answer (first.2 answer)⟩
    exact congrArg (·.bind f) (first.1 a b alike)

theorem blind_map {x : Process ε Op Res β} {f : β → α} (first : x.Blind same) : (f <$> x).Blind same :=
  blind_bind first fun _ => trivial

/-- An operation whose answers are all told apart. -/
theorem blind_perform {op : Op} (apart : ∀ a b, ¬ same op a b) :
    (perform op : Process ε Op Res (Res op)).Blind same := by
  refine ⟨fun a b alike => absurd alike (apart a b), fun answer => ?_⟩
  cases answer <;> trivial

end Blind

/-! ### Lists of requests -/

section Lists
variable {A : Type} {entries : List A} {index : Nat} {old new : A} {p : A → Bool}

/-- Replacing an entry that is kept replaces it among those that are kept. -/
theorem filter_set_kept (found : entries[index]? = some old) (kept : p old = true) (kept' : p new = true) :
    ∃ place, (entries.filter p)[place]? = some old ∧
      (entries.set index new).filter p = (entries.filter p).set place new := by
  induction entries generalizing index with
  | nil => contradiction
  | cons head tail ih =>
    cases index with
    | zero =>
      obtain rfl : head = old := by simpa using found
      refine ⟨0, ?_, ?_⟩
      · rw [List.filter_cons_of_pos kept]
        rfl
      · rw [List.set_cons_zero, List.filter_cons_of_pos kept, List.filter_cons_of_pos kept']
        rfl
    | succ index =>
      obtain ⟨place, there, same⟩ := ih (by simpa using found)
      rw [List.set_cons_succ]
      by_cases here : p head = true
      · refine ⟨place + 1, ?_, ?_⟩
        · rw [List.filter_cons_of_pos here]
          exact there
        · rw [List.filter_cons_of_pos here, List.filter_cons_of_pos here, same]
          rfl
      · exact ⟨place, by rwa [List.filter_cons_of_neg here],
          by rw [List.filter_cons_of_neg here, List.filter_cons_of_neg here, same]⟩

theorem filter_set_dropped (found : entries[index]? = some old) (dropped : p old = false)
    (dropped' : p new = false) : (entries.set index new).filter p = entries.filter p := by
  induction entries generalizing index with
  | nil => contradiction
  | cons head tail ih =>
    cases index with
    | zero =>
      obtain rfl : head = old := by simpa using found
      rw [List.set_cons_zero, List.filter_cons_of_neg (by simp [dropped']),
        List.filter_cons_of_neg (by simp [dropped])]
    | succ index =>
      rw [List.set_cons_succ, List.filter_cons, List.filter_cons, ih (by simpa using found)]

end Lists

/-! ### In a pool -/

section Pool
variable {W ρ U : Type} [DecidableEq U] {handler : ρ → Process ε Op Res α}
  {serve : W → (op : Op) → Except ε (Res op) → W → Prop}
  {pool pool' : Pool W ρ ε Op Res α} {event : Event ρ ε Op Res}
  {trace : List (Pool W ρ ε Op Res α × Event ρ ε Op Res)}

/-- What the confinement of requests to their owners takes. -/
structure Confined (handler : ρ → Process ε Op Res α)
    (serve : W → (op : Op) → Except ε (Res op) → W → Prop) (owner : ρ → U) (view : U → W → W)
    (same : U → (op : Op) → Except ε (Res op) → Except ε (Res op) → Prop)
    (Sound : W → Prop) (good : (op : Op) → Except ε (Res op) → Prop) (may : U → Op → Prop) : Prop where
  relies : ∀ request, (handler request).Relies good (may (owner request)) fun _ => True
  blind : ∀ request, (handler request).Blind (same (owner request))
  truthful : ∀ {w op answer w'}, Sound w → serve w op answer w' → good op answer
  keeps : ∀ {u w op answer w'}, Sound w → may u op → serve w op answer w' → Sound w'
  apart : ∀ {u u' w op answer w'}, Sound w → may u op → u ≠ u' → serve w op answer w' → view u' w' = view u' w
  own : ∀ {u w op answer w'}, Sound w → may u op → serve w op answer w' →
    ∃ seen, serve (view u w) op seen (view u w') ∧ (seen = answer ∨ same u op answer seen)

namespace Confined
variable {owner : ρ → U} {view : U → W → W} {same : U → (op : Op) → Except ε (Res op) → Except ε (Res op) → Prop}
  {Sound : W → Prop} {good : (op : Op) → Except ε (Res op) → Prop} {may : U → Op → Prop}

/-- The requests of one owner, over what the owner sees. -/
def part (owner : ρ → U) (view : U → W → W) (u : U) (pool : Pool W ρ ε Op Res α) : Pool W ρ ε Op Res α :=
  ⟨view u pool.world, pool.running.filter fun entry => owner entry.1 = u⟩

/-- What is kept while the requests run. -/
structure Kept (owner : ρ → U) (same : U → (op : Op) → Except ε (Res op) → Except ε (Res op) → Prop)
    (Sound : W → Prop) (good : (op : Op) → Except ε (Res op) → Prop) (may : U → Op → Prop)
    (pool : Pool W ρ ε Op Res α) : Prop where
  sound : Sound pool.world
  relying : pool.Relying good (fun request => may (owner request)) fun _ _ => True
  blind : ∀ entry ∈ pool.running, entry.2.Blind (same (owner entry.1))

variable (confined : Confined handler serve owner view same Sound good may)
include confined

omit [DecidableEq U] in
theorem step_kept (step : Pool.Step handler (fun _ => serve) (fun _ _ => False) pool event pool')
    (kept : Kept owner same Sound good may pool) : Kept owner same Sound good may pool' := by
  have told : ∀ index op answer, event = .served index op answer → good op answer := by
    rintro index op answer rfl
    cases step with
    | served found answered => exact confined.truthful kept.sound answered
  refine ⟨?_, step.relying (fun request _ => confined.relies request) told kept.relying, ?_⟩
  · cases step with
    | start => exact kept.sound
    | served found answered =>
      have allowed := (kept.relying _ (List.mem_of_getElem? found)).1
      exact confined.keeps kept.sound allowed answered
    | outside moved => exact moved.elim
  · refine step.each (fun request rest => rest.Blind (same (owner request)))
      (fun request _ => confined.blind request) ?_ kept.blind
    exact fun _ _ _ _ answer _ _ blind => blind.2 answer

/-- A step is one of the owner's part, or does not show there. -/
theorem step_part (u : U) (step : Pool.Step handler (fun _ => serve) (fun _ _ => False) pool event pool')
    (kept : Kept owner same Sound good may pool) :
    part owner view u pool' = part owner view u pool ∨
      ∃ event', Pool.Step handler (fun _ => serve) (fun _ _ => False) (part owner view u pool) event'
        (part owner view u pool') := by
  cases step with
  | start request =>
    by_cases own : owner request = u
    · refine .inr ⟨.start request, ?_⟩
      simp only [part, List.filter_append, List.filter_cons, List.filter_nil, own, decide_true, if_true]
      exact .start request
    · refine .inl ?_
      simp [part, own]
  | @served world running index request op next answer after found answered =>
    have allowed := (kept.relying _ (List.mem_of_getElem? found)).1
    have blind := kept.blind _ (List.mem_of_getElem? found)
    by_cases own : owner request = u
    · obtain ⟨place, there, replaced⟩ := filter_set_kept (p := fun entry => owner entry.1 = u) found
        (by simpa using own) (show decide (owner (request, next answer).1 = u) = true by simpa using own)
      subst own
      obtain ⟨seen, served, alike⟩ := confined.own kept.sound allowed answered
      have goes : next seen = next answer := by
        rcases alike with rfl | alike
        · rfl
        · exact (blind.1 _ _ alike).symm
      have step : Pool.Step handler (fun _ => serve) (fun _ _ => False)
          (part owner view (owner request) ⟨world, running⟩) (.served place op seen) _ := .served there served
      rw [goes, ← replaced] at step
      exact .inr ⟨_, step⟩
    · refine .inl ?_
      have unseen := confined.apart kept.sound allowed own answered
      simp only [part, unseen]
      rw [filter_set_dropped found (by simpa using own) (by simpa using own)]
  | outside moved => exact moved.elim

/-- What an owner sees of a run is a run of the owner's requests alone. -/
theorem run_part (u : U) (run : Runs.Run (Pool.Step handler (fun _ => serve) (fun _ _ => False)) pool trace pool')
    (kept : Kept owner same Sound good may pool) :
    ∃ trace', Runs.Run (Pool.Step handler (fun _ => serve) (fun _ _ => False)) (part owner view u pool) trace'
      (part owner view u pool') := by
  suffices both : Kept owner same Sound good may pool' ∧ ∃ trace', Runs.Run
      (Pool.Step handler (fun _ => serve) (fun _ _ => False)) (part owner view u pool) trace'
      (part owner view u pool') from both.2
  induction run with
  | refl => exact ⟨kept, [], .refl⟩
  | tail _ step ih =>
    obtain ⟨there, trace', run⟩ := ih
    refine ⟨confined.step_kept step there, ?_⟩
    rcases confined.step_part u step there with same | ⟨event', step⟩
    · exact ⟨trace', same ▸ run⟩
    · exact ⟨_, run.tail step⟩

end Confined
end Pool
end Process
