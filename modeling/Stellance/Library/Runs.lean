import Mathlib.Data.List.Induction
import Mathlib.Order.Defs.PartialOrder

/-! Runs of a labelled transition relation. The trace of a run lists each step
with the state it was taken in, so a condition on the steps of a run may speak of
the state before the step as well as of its label. -/
namespace Runs
variable {S L : Type}

inductive Run (step : S → L → S → Prop) (s : S) : List (S × L) → S → Prop where
  | refl : Run step s [] s
  | tail : Run step s trace t → step t l u → Run step s (trace ++ [(t, l)]) u

section Positions
variable {A : Type} {earlier rest : List A} {a b : A} {n : Nat}

theorem still_at (here : earlier[n]? = some a) : (earlier ++ rest)[n]? = some a := by
  rw [List.getElem?_append_left (List.getElem?_eq_some_iff.mp here).1]
  exact here

/-- An entry of a list with one more is an earlier one, or the last. -/
theorem concat_at (here : (earlier ++ [b])[n]? = some a) :
    n < earlier.length ∧ earlier[n]? = some a ∨ n = earlier.length ∧ a = b := by
  rcases Nat.lt_or_ge n earlier.length with known | new
  · rw [List.getElem?_append_left known] at here
    exact .inl ⟨known, here⟩
  · rw [List.getElem?_append_right new, List.getElem?_singleton] at here
    split at here
    · exact .inr ⟨by omega, (Option.some.inj here).symm⟩
    · contradiction

end Positions

/-- The steps of a run, each with the states before and after it. -/
def steps : List (S × L) → S → List (S × L × S)
  | [], _ => []
  | (s, l) :: rest, last => (s, l, (rest.head?.map Prod.fst).getD last) :: steps rest last

variable {step : S → L → S → Prop} {s t u : S} {trace rest : List (S × L)} {l : L}

theorem steps_concat : steps (trace ++ [(t, l)]) u = steps trace t ++ [(t, l, u)] := by
  induction trace with
  | nil => rfl
  | cons point rest ih =>
    rw [List.cons_append, steps, ih, steps, List.cons_append]
    cases rest <;> rfl

theorem forall_steps {P : S → L → Prop} :
    (∀ taken ∈ steps trace t, P taken.1 taken.2.1) ↔ ∀ point ∈ trace, P point.1 point.2 := by
  induction trace with
  | nil => simp [steps]
  | cons point rest ih => rw [steps, List.forall_mem_cons, List.forall_mem_cons, ih]

namespace Run

theorem single (taken : step s l t) : Run step s [(s, l)] t :=
  .tail .refl taken

theorem trans (first : Run step s trace t) (second : Run step t rest u) :
    Run step s (trace ++ rest) u := by
  induction second with
  | refl => simpa only [List.append_nil] using first
  | tail _ taken ih => simpa only [List.append_assoc] using Run.tail ih taken

theorem head (taken : step s l t) (run : Run step t rest u) : Run step s ((s, l) :: rest) u :=
  (single taken).trans run

theorem eq_of_nil (run : Run step s [] u) : u = s := by
  generalize whole : [] = all at run
  cases run with
  | refl => rfl
  | tail => simp at whole

/-- The last step of a run. -/
theorem last {point : S × L} (run : Run step s (trace ++ [point]) u) :
    Run step s trace point.1 ∧ step point.1 point.2 u := by
  generalize whole : trace ++ [point] = all at run
  cases run with
  | refl => simp at whole
  | tail run taken =>
    obtain ⟨rfl, same⟩ := List.append_inj' whole rfl
    cases same
    exact ⟨run, taken⟩

/-- A run passes through a state wherever its trace is cut. -/
theorem split (run : Run step s (trace ++ rest) u) :
    ∃ t, Run step s trace t ∧ Run step t rest u := by
  induction rest using List.reverseRecOn generalizing u with
  | nil => exact ⟨u, by simpa only [List.append_nil] using run, .refl⟩
  | append_singleton rest point ih =>
    rw [← List.append_assoc] at run
    obtain ⟨earlier, taken⟩ := run.last
    obtain ⟨t, first, second⟩ := ih earlier
    exact ⟨t, first, second.tail taken⟩

/-- The first step of a run. -/
theorem first {point : S × L} (run : Run step s (point :: rest) u) :
    point.1 = s ∧ ∃ t, step s point.2 t ∧ Run step t rest u := by
  obtain ⟨t, single, later⟩ := split (show Run step s ([point] ++ rest) u from run)
  have ends := last (show Run step s ([] ++ [point]) t from single)
  have here := ends.1.eq_of_nil
  exact ⟨here, t, here ▸ ends.2, later⟩

/-- A run is in the state of a point where its trace is cut before it. -/
theorem cut {steps : List (S × L)} {point : S × L} (run : Run step s steps t)
    (cut : steps = trace ++ point :: rest) :
    Run step s trace point.1 ∧ ∃ u, step point.1 point.2 u ∧ Run step u rest t := by
  rw [cut] at run
  obtain ⟨_, before, rest⟩ := run.split
  obtain ⟨rfl, u, taken, after⟩ := rest.first
  exact ⟨before, u, taken, after⟩

/-- A run passes every point of its trace. -/
theorem pass {steps : List (S × L)} {n : Nat} {point : S × L} (run : Run step s steps t)
    (here : steps[n]? = some point) :
    Run step s (steps.take n) point.1 ∧
      ∃ u, step point.1 point.2 u ∧ Run step u (steps.drop (n + 1)) t := by
  obtain ⟨inside, same⟩ := List.getElem?_eq_some_iff.mp here
  refine run.cut ?_
  rw [← same, ← List.drop_eq_getElem_cons inside, List.take_append_drop]

/-- The state after a point leads to every later point. -/
theorem between {steps : List (S × L)} {n m : Nat} {point point' : S × L} (run : Run step s steps t)
    (here : steps[n]? = some point) (there : steps[m]? = some point') (before : n < m) :
    ∃ u, step point.1 point.2 u ∧
      Run step u ((steps.drop (n + 1)).take (m - (n + 1))) point'.1 := by
  obtain ⟨_, u, taken, after⟩ := run.pass here
  have later : (steps.drop (n + 1))[m - (n + 1)]? = some point' := by
    rw [List.getElem?_drop, Nat.add_sub_cancel' before]
    exact there
  exact ⟨u, taken, (after.pass later).1⟩

/-- The rule of every safety proof: what holds at the start and is kept by one
step that meets the condition holds at the end of a run whose steps all meet it. -/
theorem invariant_of (I : S → Prop) (Ok : S → L → Prop)
    (keeps : ∀ {s l t}, I s → Ok s l → step s l t → I t) (run : Run step s trace t)
    (meets : ∀ point ∈ trace, Ok point.1 point.2) (initial : I s) : I t := by
  induction run with
  | refl => exact initial
  | tail run taken ih =>
    refine keeps (ih fun point member => meets point (List.mem_append_left _ member)) ?_ taken
    exact meets _ (List.mem_append_right _ List.mem_cons_self)

theorem invariant {I : S → Prop} (keeps : ∀ {s l t}, I s → step s l t → I t)
    (run : Run step s trace t) (initial : I s) : I t := by
  have always : ∀ {s l t}, I s → True → step s l t → I t := fun holds _ taken => keeps holds taken
  exact run.invariant_of I (fun _ _ => True) always (fun _ _ => trivial) initial

/-- The same for what is said of a state and of the run that led to it. -/
theorem along {I : List (S × L) → S → Prop}
    (keeps : ∀ {trace t l u}, Run step s trace t → I trace t → step t l u → I (trace ++ [(t, l)]) u)
    (run : Run step s trace t) (initial : I [] s) : I trace t := by
  induction run with
  | refl => exact initial
  | tail run taken ih => exact keeps run ih taken

/-- The same again, where one step may rest on what held anywhere before it. -/
theorem history {I : List (S × L) → S → Prop}
    (keeps : ∀ {trace t l u}, Run step s trace t →
      (∀ earlier rest v, trace = earlier ++ rest → Run step s earlier v → Run step v rest t → I earlier v) →
      step t l u → I (trace ++ [(t, l)]) u)
    (run : Run step s trace t) (initial : I [] s) : I trace t := by
  suffices all : ∀ earlier rest v, trace = earlier ++ rest → Run step s earlier v →
      Run step v rest t → I earlier v from
    all trace [] t (List.append_nil _).symm run .refl
  induction run with
  | refl =>
    intro earlier rest v cut first _
    obtain ⟨rfl, _⟩ := List.append_eq_nil_iff.mp cut.symm
    exact first.eq_of_nil ▸ initial
  | @tail trace t l u run taken ih =>
    intro earlier rest v cut first second
    rcases List.eq_nil_or_concat rest with rfl | ⟨rest, point, rfl⟩
    · obtain rfl := second.eq_of_nil
      rw [← (cut.trans (List.append_nil _))]
      exact keeps run ih taken
    · rw [List.concat_eq_append, ← List.append_assoc] at cut
      rw [List.concat_eq_append] at second
      obtain ⟨rfl, same⟩ := List.append_inj' cut rfl
      cases same
      exact ih earlier rest v rfl first second.last.1

/-- Simulation with stuttering: where every step is answered by none or one of an
abstract machine, every run is answered by a run of it. -/
theorem simulated {A K : Type} {abstract : A → K → A → Prop} {Related : S → A → Prop}
    (answer : ∀ {s l t a}, Related s a → step s l t →
      Related t a ∨ ∃ k b, abstract a k b ∧ Related t b)
    (run : Run step s trace t) {a : A} (initial : Related s a) :
    ∃ answers b, Run abstract a answers b ∧ Related t b := by
  induction run with
  | refl => exact ⟨[], a, .refl, initial⟩
  | tail _ taken ih =>
    obtain ⟨answers, b, run, related⟩ := ih
    rcases answer related taken with stutters | ⟨k, c, moved, related⟩
    · exact ⟨answers, b, run, stutters⟩
    · exact ⟨_, c, .tail run moved, related⟩

/-- What is seen of a run is a run, where what is seen of each step is a step. -/
theorem seen {A K : Type} {abstract : A → K → A → Prop} {f : S → A} {g : S → L → K}
    (answer : ∀ {s l t}, step s l t → abstract (f s) (g s l) (f t)) (run : Run step s trace t) :
    Run abstract (f s) (trace.map fun point => (f point.1, g point.1 point.2)) (f t) := by
  induction run with
  | refl => exact .refl
  | tail _ taken ih =>
    rw [List.map_append]
    exact ih.tail (answer taken)

/-- A quantity that good steps keep and bad steps raise is unchanged by exactly
the runs without a bad step. -/
theorem unchanged_steps_iff {V : Type} [PartialOrder V] {f : S → V} {Bad : S → L → S → Prop}
    {I : S → Prop} (run : Run step s trace t) (initial : I s)
    (keeps : ∀ {s l t}, I s → step s l t → I t)
    (good : ∀ {s l t}, I s → step s l t → ¬ Bad s l t → f t = f s)
    (bad : ∀ {s l t}, I s → step s l t → Bad s l t → f s < f t) :
    f s ≤ f t ∧ (f t = f s ↔ ∀ taken ∈ steps trace t, ¬ Bad taken.1 taken.2.1 taken.2.2) := by
  induction run with
  | refl => simp [steps]
  | @tail trace t l u run taken ih =>
    have here : I t := run.invariant keeps initial
    rw [steps_concat]
    by_cases isBad : Bad t l u
    · have raised := lt_of_le_of_lt ih.1 (bad here taken isBad)
      refine ⟨le_of_lt raised, iff_of_false ?_ ?_⟩
      · intro same
        exact lt_irrefl _ (same ▸ raised)
      · intro clean
        exact clean _ (List.mem_append_right _ List.mem_cons_self) isBad
    · have same := good here taken isBad
      rw [same, ih.2]
      refine ⟨ih.1, ?_⟩
      constructor
      · intro clean point member
        rcases List.mem_append.mp member with earlier | last
        · exact clean point earlier
        · obtain rfl := List.mem_singleton.mp last
          exact isBad
      · intro clean point member
        exact clean point (List.mem_append_left _ member)

/-- The same where a step and the state before it tell which one is bad. -/
theorem unchanged_iff {V : Type} [PartialOrder V] {f : S → V} {Bad : S → L → Prop}
    {I : S → Prop} (run : Run step s trace t) (initial : I s)
    (keeps : ∀ {s l t}, I s → step s l t → I t)
    (good : ∀ {s l t}, I s → step s l t → ¬ Bad s l → f t = f s)
    (bad : ∀ {s l t}, I s → step s l t → Bad s l → f s < f t) :
    f s ≤ f t ∧ (f t = f s ↔ ∀ point ∈ trace, ¬ Bad point.1 point.2) := by
  rw [← forall_steps (P := fun s l => ¬ Bad s l)]
  have bad' : ∀ {s l t}, I s → step s l t → (fun s l (_ : S) => Bad s l) s l t → f s < f t := bad
  exact run.unchanged_steps_iff initial keeps good bad'

/-- What every good step keeps and every bad step ends, of a state and of the run that led to
it, holds throughout exactly the runs without a bad step. -/
theorem always_iff {J : S → Prop} {Bad : S → L → Prop} (I : List (S × L) → S → Prop)
    (run : Run step s trace t) (sound : J s) (initial : I [] s)
    (turns : ∀ {trace s l t}, J s → I trace s → step s l t →
      J t ∧ (I (trace ++ [(s, l)]) t ↔ ¬ Bad s l)) :
    (∀ earlier rest u, trace = earlier ++ rest → Run step s earlier u → Run step u rest t → I earlier u) ↔
      ∀ point ∈ trace, ¬ Bad point.1 point.2 := by
  constructor
  · intro always
    suffices both : J t ∧ ∀ point ∈ trace, ¬ Bad point.1 point.2 from both.2
    induction run with
    | refl => exact ⟨sound, nofun⟩
    | @tail trace t l u run taken ih =>
      obtain ⟨here, clean⟩ := ih fun earlier rest v cut first second =>
        always earlier (rest ++ [(t, l)]) v (by rw [cut, List.append_assoc]) first (second.tail taken)
      have before := always trace [(t, l)] t rfl run (single taken)
      have after := always _ [] u (List.append_nil _).symm (run.tail taken) .refl
      obtain ⟨there, turn⟩ := turns here before taken
      refine ⟨there, fun point member => ?_⟩
      rcases List.mem_append.mp member with earlier | last
      · exact clean point earlier
      · obtain rfl := List.mem_singleton.mp last
        exact turn.mp after
  · rintro clean earlier rest u rfl first second
    suffices both : J u ∧ I earlier u from both.2
    replace clean : ∀ point ∈ earlier, ¬ Bad point.1 point.2 :=
      fun point member => clean point (List.mem_append_left _ member)
    clear run second
    induction first with
    | refl => exact ⟨sound, initial⟩
    | @tail trace t l u run taken ih =>
      obtain ⟨here, before⟩ := ih fun point member => clean point (List.mem_append_left _ member)
      obtain ⟨there, turn⟩ := turns here before taken
      exact ⟨there, turn.mpr (clean _ (List.mem_append_right _ List.mem_cons_self))⟩

/-- The same for what is said of the state alone. -/
theorem throughout_iff {I J : S → Prop} {Bad : S → L → Prop} (run : Run step s trace t)
    (sound : J s) (initial : I s)
    (turns : ∀ {s l t}, J s → I s → step s l t → J t ∧ (I t ↔ ¬ Bad s l)) :
    (∀ earlier rest u, trace = earlier ++ rest → Run step s earlier u → Run step u rest t → I u) ↔
      ∀ point ∈ trace, ¬ Bad point.1 point.2 :=
  run.always_iff (fun _ => I) sound initial turns

end Run

end Runs
