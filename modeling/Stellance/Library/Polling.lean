import Stellance.Library.Process

/-! Asking again until there is an answer. A process that polls asks once, and then at
most a fixed number of times more, as long as what it was told says to. -/
namespace Process
variable {ε Op : Type} {Res : Op → Type} {β W : Type}

/-- `while (again(told) && attempts < n) { told = await round; attempts++ }` -/
def pollWhile (again : β → Bool) (round : Process ε Op Res β) : Nat → β → Process ε Op Res β
  | 0, told => done told
  | n + 1, told =>
      if again told then do
        let told ← round
        pollWhile again round n told
      else done told

/-- The first `k` polls were told to ask again. -/
def Unsettled (again : β → Bool) (polls : Nat → Except ε β) (k : Nat) : Prop :=
  ∀ j < k, ∃ told, polls j = .ok told ∧ again told = true

section Polling
variable {again : β → Bool} {round : Process ε Op Res β} {polls : Nat → Except ε β}
  {serve : W → (op : Op) → Except ε (Res op) → W → Prop} {At : Nat → W → Prop}

theorem Unsettled.succ {k : Nat} {told : β} (unsettled : Unsettled again polls k)
    (answer : polls k = .ok told) (more : again told = true) : Unsettled again polls (k + 1) := by
  intro j below
  rcases Nat.lt_succ_iff_lt_or_eq.mp below with earlier | rfl
  · exact unsettled j earlier
  · exact ⟨told, answer, more⟩

variable (polls At) in
/-- Where the polls are answered by a list, the loop ends with the first answer that is
not to ask again, with the first exception, or with the last answer there is time for. -/
theorem completes_pollWhile
    (asks : ∀ {k w told w'}, At k w → Completes serve w round told w' →
      told = polls (k + 1) ∧ At (k + 1) w')
    {n k : Nat} {w last : W} {told : β} {result : Except ε β} (here : At k w)
    (answer : polls k = .ok told) (unsettled : Unsettled again polls k)
    (ran : Completes serve w (pollWhile again round n told) result last) :
    ∃ m, m ≤ k + n ∧ result = polls m ∧ At m last ∧ Unsettled again polls m ∧
      (m = k + n ∨ ∀ told, polls m = .ok told → again told = false) := by
  induction n generalizing k w told with
  | zero =>
    obtain ⟨rfl, rfl⟩ := completes_done.mp ran
    exact ⟨k, Nat.le_refl _, answer.symm, here, unsettled, .inl rfl⟩
  | succ n ih =>
    rw [pollWhile] at ran
    split at ran
    · rename_i more
      have upTo := unsettled.succ answer more
      rcases completes_bind.mp ran with ⟨e, rfl, asked⟩ | ⟨next, between, asked, rest⟩
      · obtain ⟨thrown, there⟩ := asks here asked
        refine ⟨k + 1, by omega, thrown, there, upTo, .inr fun told answer => ?_⟩
        rw [← thrown] at answer
        contradiction
      · obtain ⟨given, there⟩ := asks here asked
        have ended := ih there given.symm upTo rest
        rwa [Nat.add_right_comm, Nat.add_assoc] at ended
    · rename_i settled
      obtain ⟨rfl, rfl⟩ := completes_done.mp ran
      refine ⟨k, by omega, answer.symm, here, unsettled, .inr fun other same => ?_⟩
      rw [answer] at same
      cases same
      simpa using settled

end Polling
end Process
