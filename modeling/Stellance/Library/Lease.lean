import Stellance.Library.Runs

/-! Leases along a run. A lease runs down as time passes and some steps renew it. If a
renewal leaves at least a bound, and renewals of a lease that is wanted come less than
the bound apart, then it does not run out while it is wanted. -/
namespace Lease
open Runs
variable {S L : Type}

/-- Which steps renew the lease, and how long the others take. -/
structure Clock (S L : Type) where
  renews : S × L → Bool
  lasts : L → Nat

namespace Clock
variable (clock : Clock S L)

def tick (age : Nat) (point : S × L) : Nat :=
  if clock.renews point then 0 else age + clock.lasts point.2

/-- The time since the last renewal of a trace. -/
def since (trace : List (S × L)) : Nat :=
  trace.foldl clock.tick 0

theorem since_append (trace : List (S × L)) (point : S × L) :
    clock.since (trace ++ [point]) = clock.tick (clock.since trace) point := by
  simp only [since, List.foldl_append, List.foldl_cons, List.foldl_nil]

/-- Renewals of a wanted lease come less than the bound apart, the last of them less
than the bound ago. -/
structure Timely (wanted : S → Prop) (bound : Nat) (trace : List (S × L)) (now : S) : Prop where
  between : ∀ before point after, trace = before ++ point :: after →
    clock.renews point = true → wanted point.1 → clock.since before < bound
  lately : wanted now → clock.since trace < bound

/-- What the lease relies on of a step. -/
structure Keeps (step : S → L → S → Prop) (held wanted : S → Prop) (left : S → Nat) (bound : Nat) :
    Prop where
  renewed : ∀ {s l t}, step s l t → clock.renews (s, l) = true → bound ≤ left t
  runs_down : ∀ {s l t}, step s l t → clock.renews (s, l) = false → held t →
    held s ∧ left s ≤ left t + clock.lasts l
  stays : ∀ {s l t}, step s l t → clock.renews (s, l) = false → wanted s → wanted t

variable {clock} {step : S → L → S → Prop} {held wanted : S → Prop} {left : S → Nat} {bound : Nat}
  {s t : S} {trace before after : List (S × L)} {point : S × L}

/-- What is left and the time since the last renewal make up the bound. -/
theorem Keeps.covered (keeps : clock.Keeps step held wanted left bound) (run : Run step s trace t)
    (fresh : ¬ held s) : held t → bound ≤ left t + clock.since trace := by
  refine run.along (I := fun trace t => held t → bound ≤ left t + clock.since trace) ?_ ?_
  · intro trace t l u _ covered taken there
    rw [since_append, tick]
    cases renews : clock.renews (t, l) with
    | true => exact Nat.le_add_right_of_le (keeps.renewed taken renews)
    | false =>
      obtain ⟨here, down⟩ := keeps.runs_down taken renews there
      have enough := covered here
      simp only [Bool.false_eq_true, if_false]
      omega
  · exact fun here => absurd here fresh

/-- A lease wanted now was renewed less than the bound ago: the next renewal, or the end
of the run, says so. -/
theorem Keeps.since_lt (keeps : clock.Keeps step held wanted left bound) (run : Run step s after t)
    (timely : clock.Timely wanted bound (before ++ after) t) (here : wanted s) :
    clock.since before < bound := by
  induction after generalizing s before with
  | nil =>
    obtain rfl := run.eq_of_nil
    rw [List.append_nil] at timely
    exact timely.lately here
  | cons point after ih =>
    obtain ⟨rfl, u, taken, later⟩ := run.first
    cases renews : clock.renews point with
    | true => exact timely.between before point after rfl renews here
    | false =>
      have stays := keeps.stays taken renews here
      have next : clock.since (before ++ [point]) < bound :=
        ih later (by rwa [List.append_assoc]) stays
      rw [since_append, tick, renews] at next
      simp only [Bool.false_eq_true, if_false] at next
      omega

/-- The lease does not run out while it is wanted. -/
theorem Keeps.alive (keeps : clock.Keeps step held wanted left bound) (run : Run step s trace t)
    (fresh : ¬ held s) (timely : clock.Timely wanted bound trace t) (holds : ∀ s, wanted s → held s) :
    (∀ before point after, trace = before ++ point :: after → wanted point.1 → 0 < left point.1) ∧
      (wanted t → 0 < left t) := by
  constructor
  · intro before point after cut here
    obtain ⟨earlier, u, taken, later⟩ := run.cut cut
    have covered := keeps.covered earlier fresh (holds _ here)
    have lately : clock.since before < bound := keeps.since_lt (.head taken later) (cut ▸ timely) here
    omega
  · intro here
    have covered := keeps.covered run fresh (holds _ here)
    have lately := timely.lately here
    omega

end Clock
end Lease
