import Mathlib.Algebra.Ring.Nat
import Mathlib.Data.List.Basic
import Mathlib.Data.Set.Function

/-! Text in groups with separators between them. Texts that differ may agree once the
separators are taken out, but not if their groups are as long as each other's: the lengths
say where the separators were. -/

namespace Grouping
variable {α : Type} {sep char : α} {text : List α} {groups : List (List α)}

/-- Where every group but the first begins, not counting separators. -/
def boundaries (start : Nat) : List Nat → List Nat
  | [] | [_] => []
  | width :: next :: rest => (start + width) :: boundaries (start + width) (next :: rest)

/-- A separator put in at every position. The last goes in first, so that the positions
are those of the text without separators. -/
def reinsert (sep : α) (positions : List Nat) (text : List α) : List α :=
  positions.foldr (fun position text => text.insertIdx position sep) text

theorem insertIdx_length (first second : List α) :
    (first ++ second).insertIdx first.length sep = first ++ sep :: second := by
  induction first with
  | nil => simp
  | cons head tail ih => simpa using ih

/-- The induction is on the groups to come; those that are passed stand in front. -/
theorem reinsert_boundaries (front : List α) :
    reinsert sep (boundaries front.length (groups.map List.length)) (front ++ groups.flatten) =
      front ++ [sep].intercalate groups := by
  induction groups generalizing front with
  | nil => simp [boundaries, reinsert]
  | cons group rest ih =>
    cases rest with
    | nil => simp [boundaries, reinsert]
    | cons next rest =>
      have later := ih (front ++ group)
      rw [List.length_append, List.append_assoc] at later
      calc reinsert sep (boundaries front.length ((group :: next :: rest).map List.length))
            (front ++ (group :: next :: rest).flatten)
          = (reinsert sep (boundaries (front.length + group.length) ((next :: rest).map List.length))
              (front ++ (group ++ (next :: rest).flatten))).insertIdx (front ++ group).length sep := by
            rw [List.length_append]
            rfl
        _ = front ++ group ++ sep :: [sep].intercalate (next :: rest) := by
            rw [later, insertIdx_length]
        _ = front ++ [sep].intercalate (group :: next :: rest) := by
            simp

section Strip
variable [DecidableEq α]

/-- All separators taken out. -/
def strip (sep : α) (text : List α) : List α := text.filter (· ≠ sep)

/-- The lengths of the groups. -/
def widths (sep : α) (text : List α) : List Nat := (text.splitOn sep).map List.length

theorem strip_of_not_mem (absent : sep ∉ text) : strip sep text = text := by
  apply List.filter_eq_self.mpr
  intro char member
  simpa using ne_of_mem_of_not_mem member absent

theorem strip_intercalate (absent : ∀ group ∈ groups, sep ∉ group) :
    strip sep ([sep].intercalate groups) = groups.flatten := by
  induction groups with
  | nil => rfl
  | cons group rest ih =>
    have here := strip_of_not_mem (absent group List.mem_cons_self)
    have later := ih fun other member => absent other (List.mem_cons_of_mem _ member)
    cases rest with
    | nil => simpa using here
    | cons next rest =>
      rw [List.intercalate_cons_cons, List.append_assoc, List.flatten_cons, ← later]
      nth_rewrite 2 [← here]
      simp [strip]

theorem not_mem_group {group : List α} (member : group ∈ text.splitOn sep) : sep ∉ group := by
  induction text generalizing group with
  | nil =>
    obtain rfl := List.mem_singleton.mp member
    exact List.not_mem_nil
  | cons char rest ih =>
    rw [List.splitOn_cons_eq_if_modifyHead] at member
    split at member
    · rcases List.mem_cons.mp member with rfl | later
      · exact List.not_mem_nil
      · exact ih later
    · rename_i other
      -- the character joins the first group of the rest
      cases split : rest.splitOn sep with
      | nil => exact absurd split (List.splitOn_ne_nil sep rest)
      | cons first groups =>
        rw [split, List.modifyHead_cons] at member
        rcases List.mem_cons.mp member with rfl | later
        · have absent : sep ∉ first := ih (split ▸ List.mem_cons_self)
          have differ : sep ≠ char := fun same => other (by simp [same])
          exact List.not_mem_cons_of_ne_of_not_mem differ absent
        · exact ih (split ▸ List.mem_cons_of_mem _ later)

theorem strip_eq (sep : α) (text : List α) : strip sep text = (text.splitOn sep).flatten := by
  rw [← strip_intercalate fun _ => not_mem_group, List.intercalate_splitOn]

theorem strip_length (sep : α) (text : List α) : (strip sep text).length = (widths sep text).sum := by
  rw [strip_eq, List.length_flatten]
  rfl

theorem mem_strip : char ∈ strip sep text ↔ ∃ group ∈ text.splitOn sep, char ∈ group := by
  rw [strip_eq, List.mem_flatten]

/-- The separators are put back where they were. -/
theorem reinsert_strip (sep : α) (text : List α) :
    reinsert sep (boundaries 0 (widths sep text)) (strip sep text) = text := by
  rw [strip_eq]
  exact (reinsert_boundaries []).trans (List.intercalate_splitOn sep)

/-- Among texts in groups of the same lengths, taking the separators out loses nothing. -/
theorem strip_injOn (sep : α) (lengths : List Nat) :
    Set.InjOn (strip sep) {text | widths sep text = lengths} := by
  intro first grouped second grouped' same
  rw [← reinsert_strip sep first, ← reinsert_strip sep second, same, grouped, grouped']

end Strip
end Grouping
