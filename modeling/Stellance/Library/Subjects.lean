import Mathlib.Data.List.Basic

/-! Subjects. A subject passes each value on to the observers it has, in the order in which
they subscribed, until it is completed. How it does so is left open; what it does is laid
down, and is done by a list of observers with a flag. -/

structure Subjects (σ ω : Type) [DecidableEq ω] where
  fresh : σ
  subscribe : σ → ω → σ
  unsubscribe : σ → ω → σ
  complete : σ → σ
  stopped : σ → Bool
  /-- Those that the next value is passed on to. -/
  observers : σ → List ω
  fresh_stopped : stopped fresh = false
  fresh_observers : observers fresh = []
  subscribe_stopped (s : σ) (o : ω) : stopped (subscribe s o) = stopped s
  subscribe_observers (s : σ) (o : ω) :
    observers (subscribe s o) = if stopped s then observers s else observers s ++ [o]
  unsubscribe_stopped (s : σ) (o : ω) : stopped (unsubscribe s o) = stopped s
  unsubscribe_observers (s : σ) (o : ω) : observers (unsubscribe s o) = (observers s).erase o
  complete_stopped (s : σ) : stopped (complete s) = true
  complete_observers (s : σ) : observers (complete s) = []

namespace Subjects
variable {σ ω : Type} [DecidableEq ω]

/-- A flag for the end, and the observers until then. -/
def listed : Subjects (Bool × List ω) ω where
  fresh := (false, [])
  subscribe s o := if s.1 then s else (s.1, s.2 ++ [o])
  unsubscribe s o := (s.1, s.2.erase o)
  complete _ := (true, [])
  stopped := Prod.fst
  observers := Prod.snd
  fresh_stopped := rfl
  fresh_observers := rfl
  subscribe_stopped s o := by split <;> rfl
  subscribe_observers s o := by split <;> rfl
  unsubscribe_stopped _ _ := rfl
  unsubscribe_observers _ _ := rfl
  complete_stopped _ := rfl
  complete_observers _ := rfl

attribute [simp] fresh_stopped fresh_observers subscribe_stopped subscribe_observers unsubscribe_stopped
  unsubscribe_observers complete_stopped complete_observers

/-- A value reaches the state of each observer, one after another. -/
def next {τ : Type} (rx : Subjects σ ω) (receive : τ → ω → τ) (s : σ) (state : τ) : τ :=
  (rx.observers s).foldl receive state

end Subjects
