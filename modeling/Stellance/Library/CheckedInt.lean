import Mathlib.Tactic.Linarith
import Mathlib.Tactic.NormNum

/-! Integers of a fixed range with checked arithmetic. A value carries its own
bounds, so an out-of-range result is not a value but an absent one: every checked
operation is exact when it returns. The range is arbitrary. -/

structure CheckedInt (lo hi : Int) where
  val : Int
  lo_le : lo ≤ val
  le_hi : val ≤ hi
  deriving DecidableEq

namespace CheckedInt
variable {lo hi : Int} {a b c : CheckedInt lo hi} {x : Int}

theorem ext_val (same : a.val = b.val) : a = b := by
  cases a
  cases b
  cases same
  rfl

/-- The value of an integer, if the range has it. -/
def ofInt? (x : Int) : Option (CheckedInt lo hi) :=
  if h : lo ≤ x ∧ x ≤ hi then some ⟨x, h.1, h.2⟩ else none

@[simp] theorem ofInt?_eq_some : ofInt? x = some a ↔ a.val = x := by
  unfold ofInt?
  split
  · rename_i within
    constructor
    · intro h
      cases h
      rfl
    · intro h
      exact congrArg some (ext_val h.symm)
  · rename_i outside
    constructor
    · intro h
      contradiction
    · intro h
      exact absurd ⟨h ▸ a.lo_le, h ▸ a.le_hi⟩ outside

theorem ofInt?_eq_none : (ofInt? x : Option (CheckedInt lo hi)) = none ↔ ¬ (lo ≤ x ∧ x ≤ hi) := by
  unfold ofInt?
  split <;> simp_all

def checkedAdd (a b : CheckedInt lo hi) : Option (CheckedInt lo hi) := ofInt? (a.val + b.val)
def checkedSub (a b : CheckedInt lo hi) : Option (CheckedInt lo hi) := ofInt? (a.val - b.val)
def checkedMul (a b : CheckedInt lo hi) : Option (CheckedInt lo hi) := ofInt? (a.val * b.val)

/-- Division truncated towards zero; there is no quotient by zero. -/
def checkedDiv (a : CheckedInt lo hi) (n : Int) : Option (CheckedInt lo hi) :=
  if n = 0 then none else ofInt? (a.val.tdiv n)

@[simp] theorem checkedAdd_eq_some : a.checkedAdd b = some c ↔ c.val = a.val + b.val :=
  ofInt?_eq_some

@[simp] theorem checkedSub_eq_some : a.checkedSub b = some c ↔ c.val = a.val - b.val :=
  ofInt?_eq_some

@[simp] theorem checkedMul_eq_some : a.checkedMul b = some c ↔ c.val = a.val * b.val :=
  ofInt?_eq_some

@[simp] theorem checkedDiv_eq_some {n : Int} :
    a.checkedDiv n = some c ↔ n ≠ 0 ∧ c.val = a.val.tdiv n := by
  unfold checkedDiv
  split <;> simp_all

theorem checkedMul_eq_none : a.checkedMul b = none ↔ ¬ (lo ≤ a.val * b.val ∧ a.val * b.val ≤ hi) :=
  ofInt?_eq_none

/-- A difference of two values of a range around zero is in range when neither
is negative. -/
theorem exists_checkedSub (signed : lo ≤ 0) (left : 0 ≤ b.val) (right : b.val ≤ a.val) :
    ∃ c : CheckedInt lo hi, c.val = a.val - b.val :=
  ⟨⟨a.val - b.val, by omega, by have := a.le_hi; omega⟩, rfl⟩

/-- A sum stays in range below any value of the range. -/
theorem exists_checkedAdd (left : 0 ≤ b.val) (bound : a.val + b.val ≤ c.val) :
    ∃ d : CheckedInt lo hi, d.val = a.val + b.val :=
  ⟨⟨a.val + b.val, by have := a.lo_le; omega, by have := c.le_hi; omega⟩, rfl⟩

end CheckedInt
