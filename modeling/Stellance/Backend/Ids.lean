import Mathlib.Data.List.Basic
import Mathlib.Tactic.Linarith
import Stellance.Library.Grouping

/-! Ids of the database and their keys on chain. A UUID is its 32 hexadecimal
digits; its text groups them by hyphens, and the escrow contract is called under
the text without them. -/
namespace Stellance.Backend

structure Uuid where
  digits : List (Fin 16)
  count : digits.length = 32
  deriving DecidableEq

/-- The UUID of one repeated digit. -/
def Uuid.repeated (digit : Fin 16) : Uuid := ⟨List.replicate 32 digit, rfl⟩

def hexDigit (digit : Fin 16) : Char :=
  ['0', '1', '2', '3', '4', '5', '6', '7', '8', '9', 'a', 'b', 'c', 'd', 'e', 'f'].get digit

namespace Uuid

/-- Some digits of a UUID, from a position on. -/
def group (id : Uuid) (start count : Nat) : List Char :=
  ((id.digits.drop start).take count).map hexDigit

/-- The canonical lower-case text, in groups of 8-4-4-4-12. -/
def text (id : Uuid) : List Char :=
  id.group 0 8 ++ '-' :: id.group 8 4 ++ '-' :: id.group 12 4 ++ '-' :: id.group 16 4 ++
    '-' :: id.group 20 12

end Uuid

/-- Soroban symbols, as text. -/
abbrev Symbol := List Char

/-- Every hyphen replaced by nothing. -/
def contractIdToSymbol (uuid : List Char) : Symbol :=
  uuid.filter (· ≠ '-')

/-- The key of a database contract on chain. -/
def Uuid.symbol (id : Uuid) : Symbol := contractIdToSymbol id.text

theorem hexDigit_ne_hyphen (digit : Fin 16) : hexDigit digit ≠ '-' := by
  revert digit
  decide

theorem hexDigit_injective : Function.Injective hexDigit := by
  intro first second
  revert first second
  decide

namespace Uuid
variable {group : List Char}

/-- The groups of the text. -/
def groups (id : Uuid) : List (List Char) :=
  [id.group 0 8, id.group 8 4, id.group 12 4, id.group 16 4, id.group 20 12]

theorem text_eq (id : Uuid) : id.text = ['-'].intercalate id.groups := by
  simp [text, groups]

theorem mem_group {char : Char} (id : Uuid) (member : group ∈ id.groups) (within : char ∈ group) :
    ∃ digit, hexDigit digit = char := by
  have digits : ∃ start count, id.group start count = group := by
    simp only [groups, List.mem_cons, List.not_mem_nil, or_false] at member
    rcases member with rfl | rfl | rfl | rfl | rfl <;> exact ⟨_, _, rfl⟩
  obtain ⟨start, count, rfl⟩ := digits
  obtain ⟨digit, _, same⟩ := List.mem_map.mp within
  exact ⟨digit, same⟩

theorem hyphen_not_mem (id : Uuid) (member : group ∈ id.groups) : '-' ∉ group := by
  intro within
  obtain ⟨digit, same⟩ := id.mem_group member within
  exact hexDigit_ne_hyphen digit same

end Uuid

theorem group_append (id : Uuid) (start first second : Nat) :
    id.group start first ++ id.group (start + first) second = id.group start (first + second) := by
  unfold Uuid.group
  rw [← List.map_append, List.take_add, List.drop_drop]

/-- Stripping the hyphens leaves the digits. -/
theorem symbol_eq (id : Uuid) : id.symbol = id.digits.map hexDigit := by
  have whole : id.group 0 32 = id.digits.map hexDigit := by
    unfold Uuid.group
    rw [List.drop_zero, ← id.count, List.take_length]
  have stripped : id.symbol = id.groups.flatten := by
    rw [Uuid.symbol, id.text_eq]
    exact Grouping.strip_intercalate fun _ => id.hyphen_not_mem
  rw [stripped, ← whole, ← group_append id 0 8 24, ← group_append id 8 4 20, ← group_append id 12 4 16,
    ← group_append id 16 4 12]
  simp [Uuid.groups]

/-- Distinct contracts have distinct keys. -/
theorem symbol_injective : Function.Injective Uuid.symbol := by
  intro first second same
  rw [symbol_eq, symbol_eq] at same
  obtain ⟨digits, count⟩ := first
  obtain ⟨others, count'⟩ := second
  obtain rfl := List.map_injective_iff.mpr hexDigit_injective same
  rfl

end Stellance.Backend
