import Mathlib.Data.List.Count
import Mathlib.Data.List.Nodup
import Mathlib.Logic.Equiv.Basic
import Mathlib.Order.Lattice

/-! Pages of sorted rows. Several rows may share a key, and a query that sorts by it may
arrange them otherwise than the query before. Pages cut from lists so arranged still make up
the rows where no boundary of a page falls between two rows of one key, and only there. -/

namespace Paging
variable {α κ : Type} [LinearOrder κ] {key : α → κ} {rows order : List α} {size index boundary count : Nat}
  {row : α}

/-- The rows in an order that has the greatest keys first. -/
structure Arranges (key : α → κ) (rows order : List α) : Prop where
  perm : order.Perm rows
  sorted : order.Pairwise fun earlier later => key later ≤ key earlier

/-- The page of an index, the first one being 0. -/
def cut (size index : Nat) (order : List α) : List α := (order.drop (index * size)).take size

def pageCount (total size : Nat) : Nat := (total + size - 1) / size

/-- The pages of so many queries, one after another. -/
def joined (size count : Nat) (orders : Nat → List α) : List α :=
  (List.range count).flatMap fun index => cut size index (orders index)

/-- Rows of one key lie on both sides of the boundary. -/
def Torn (key : α → κ) (rows : List α) (boundary : Nat) : Prop :=
  ∃ row ∈ rows, rows.countP (key row < key ·) < boundary ∧ boundary < rows.countP (key row ≤ key ·)

/-- The rows whose keys begin before the boundary. -/
def before (key : α → κ) (rows : List α) (boundary : Nat) : List α :=
  rows.filter fun row => rows.countP (key row < key ·) < boundary

/-! ### One arrangement -/

theorem take_cut : order.take (index * size) ++ cut size index order = order.take ((index + 1) * size) := by
  rw [cut, Nat.succ_mul, List.take_add]

theorem joined_succ (orders : Nat → List α) :
    joined size (count + 1) orders = joined size count orders ++ cut size count (orders count) := by
  simp [joined, List.range_succ]

theorem joined_same : joined size count (fun _ => order) = order.take (count * size) := by
  induction count with
  | zero => simp [joined]
  | succ count ih => rw [joined_succ, ih, take_cut]

theorem joined_all (fits : order.length ≤ count * size) : joined size count (fun _ => order) = order := by
  rw [joined_same, List.take_of_length_le fits]

theorem cut_map (f : α → α) : cut size index (order.map f) = (cut size index order).map f := by
  simp [cut, List.map_take, List.map_drop]

theorem mem_cut {place : Nat} (positive : 0 < size) (found : order[place]? = some row) :
    row ∈ cut size (place / size) order := by
  refine List.mem_iff_getElem?.mpr ⟨place % size, ?_⟩
  rw [cut, List.getElem?_take, if_pos (Nat.mod_lt _ positive), List.getElem?_drop, Nat.div_add_mod']
  exact found

theorem le_pageCount (total : Nat) (positive : 0 < size) : total ≤ pageCount total size * size := by
  have divided := Nat.div_add_mod (total + size - 1) size
  have below := Nat.mod_lt (total + size - 1) positive
  rw [pageCount, Nat.mul_comm]
  omega

theorem lt_pageCount {total : Nat} (positive : 0 < size) : index < pageCount total size ↔ index * size < total := by
  rw [pageCount, ← Nat.succ_le_iff, Nat.le_div_iff_mul_le positive, Nat.succ_mul]
  omega

/-- What lies before a boundary is on a page before it. -/
theorem mem_take (member : row ∈ order.take (index * size)) : ∃ page < index, row ∈ cut size page order := by
  rw [← joined_same] at member
  obtain ⟨page, within, shown⟩ := List.mem_flatMap.mp member
  exact ⟨page, List.mem_range.mp within, shown⟩

theorem mem_drop (positive : 0 < size) (member : row ∈ order.drop (index * size)) :
    ∃ page, index ≤ page ∧ page < pageCount order.length size ∧ row ∈ cut size page order := by
  obtain ⟨offset, found⟩ := List.mem_iff_getElem?.mp member
  rw [List.getElem?_drop] at found
  refine ⟨_, ?_, ?_, mem_cut positive found⟩
  · exact (Nat.le_div_iff_mul_le positive).mpr (Nat.le_add_right _ _)
  · rw [lt_pageCount positive]
    exact (Nat.div_mul_le_self _ _).trans_lt (List.getElem?_eq_some_iff.mp found).1

theorem cut_beyond (positive : 0 < size) (beyond : pageCount order.length size ≤ index) :
    cut size index order = [] := by
  have past : order.length ≤ index * size :=
    (le_pageCount order.length positive).trans (Nat.mul_le_mul_right size beyond)
  rw [cut, List.drop_of_length_le past, List.take_nil]

theorem exists_arranges (key : α → κ) (rows : List α) : ∃ order, Arranges key rows order := by
  refine ⟨rows.mergeSort fun earlier later => key later ≤ key earlier, List.mergeSort_perm _ _, ?_⟩
  refine (List.pairwise_mergeSort ?_ ?_ rows).imp fun sorted => by simpa using sorted
  · intro a b c first second
    simp only [decide_eq_true_eq] at *
    exact second.trans first
  · intro a b
    simpa using le_total (key b) (key a)

/-! ### Boundaries -/

/-- Where no two rows share a key, none are torn apart. -/
theorem not_torn (distinct : (rows.map key).Nodup) : ¬ Torn key rows boundary := by
  rintro ⟨row, _, fewer, more⟩
  have split : rows.countP (key row ≤ key ·) = rows.countP (key row < key ·) + rows.countP (key row = key ·) := by
    rw [List.countP_eq_countP_filter_add rows (key row ≤ key ·) (key row < key ·), List.countP_filter,
      List.countP_filter]
    congr 1 <;> refine List.countP_congr fun other _ => ?_
    · simpa using le_of_lt
    · simp only [Bool.and_eq_true, decide_eq_true_eq, Bool.not_eq_eq_eq_not, Bool.not_true,
        decide_eq_false_iff_not, not_lt]
      exact le_antisymm_iff.symm
  have single : rows.countP (key row = key ·) ≤ 1 := by
    have counted := List.nodup_iff_count_le_one.mp distinct (key row)
    rw [List.count, List.countP_map] at counted
    refine (List.countP_congr fun other _ => ?_).trans_le counted
    simp only [decide_eq_true_eq, Function.comp_apply, beq_iff_eq, eq_comm (a := key row)]
  omega

namespace Arranges
variable (arranged : Arranges key rows order)
include arranged

theorem countP_eq (boundary : Nat) (p : α → Bool) :
    rows.countP p = (order.take boundary).countP p + (order.drop boundary).countP p := by
  rw [← arranged.perm.countP_eq, ← List.countP_append, List.take_append_drop]

theorem key_le {early late : α} (earlier : early ∈ order.take boundary) (later : late ∈ order.drop boundary) :
    key late ≤ key early := by
  have sorted := arranged.sorted
  rw [← List.take_append_drop boundary order, List.pairwise_append] at sorted
  exact sorted.2.2 early earlier late later

theorem before_iff (whole : ¬ Torn key rows boundary) (late : row ∈ order.drop boundary) :
    ¬ rows.countP (key row < key ·) < boundary := by
  intro fewer
  refine whole ⟨row, arranged.perm.mem_iff.mp (List.mem_of_mem_drop late), fewer, ?_⟩
  have full : (order.take boundary).length = boundary := by
    have some_late := List.length_pos_of_mem late
    rw [List.length_drop] at some_late
    rw [List.length_take]
    omega
  have all : (order.take boundary).countP (key row ≤ key ·) = boundary := by
    rw [List.countP_eq_length.mpr, full]
    intro early member
    simpa using arranged.key_le member late
  have one : 0 < (order.drop boundary).countP (key row ≤ key ·) :=
    List.countP_pos_iff.mpr ⟨row, late, by simp⟩
  rw [arranged.countP_eq boundary, all]
  omega

theorem before_early (early : row ∈ order.take boundary) : rows.countP (key row < key ·) < boundary := by
  have none_later : (order.drop boundary).countP (key row < key ·) = 0 := by
    rw [List.countP_eq_zero]
    intro late member
    simpa using arranged.key_le early member
  rw [arranged.countP_eq boundary, none_later, Nat.add_zero]
  have fewer : (order.take boundary).countP (key row < key ·) < (order.take boundary).length := by
    rw [List.countP_lt_length_iff]
    exact ⟨row, early, by simp⟩
  exact fewer.trans_le (List.length_take_le _ _)

/-- What lies before a boundary that tears no rows apart, however they are arranged. -/
theorem take_perm (whole : ¬ Torn key rows boundary) : (order.take boundary).Perm (before key rows boundary) := by
  have same : order.filter (fun row => rows.countP (key row < key ·) < boundary) = order.take boundary := by
    conv_lhs => rw [← List.take_append_drop boundary order]
    rw [List.filter_append, List.filter_eq_self.mpr, List.filter_eq_nil_iff.mpr, List.append_nil]
    · intro row late
      simpa using arranged.before_iff whole late
    · intro row early
      simpa using arranged.before_early early
  exact same ▸ arranged.perm.filter _

/-- Across a boundary that tears rows apart lie two of one key. -/
theorem torn (tears : Torn key rows boundary) :
    ∃ early ∈ order.take boundary, ∃ late ∈ order.drop boundary, key early = key late := by
  obtain ⟨row, _, fewer, more⟩ := tears
  rw [arranged.countP_eq boundary] at fewer more
  have atMost : (order.take boundary).countP (key row ≤ key ·) ≤ boundary :=
    List.countP_le_length.trans (List.length_take_le _ _)
  have beyond : 0 < (order.drop boundary).countP (key row ≤ key ·) := by omega
  obtain ⟨late, later, least⟩ := List.countP_pos_iff.mp beyond
  have full : (order.take boundary).length = boundary := by
    have some_late := List.length_pos_of_mem later
    rw [List.length_drop] at some_late
    rw [List.length_take]
    omega
  have short : (order.take boundary).countP (key row < key ·) < (order.take boundary).length := by omega
  obtain ⟨early, earlier, most⟩ := List.countP_lt_length_iff.mp short
  simp only [decide_eq_true_eq, decide_eq_false_iff_not, not_lt] at least most
  exact ⟨early, earlier, late, later, le_antisymm (most.trans least) (arranged.key_le earlier later)⟩

end Arranges

/-! ### Many arrangements -/

theorem before_all (most : rows.length ≤ boundary) : before key rows boundary = rows := by
  rw [before, List.filter_eq_self]
  intro row member
  have fewer : rows.countP (key row < key ·) < rows.length := by
    rw [List.countP_lt_length_iff]
    exact ⟨row, member, by simp⟩
  simpa using fewer.trans_le most

/-- Page after page, what has been shown is what lies before the next boundary. -/
theorem joined_before {orders : Nat → List α} (arranged : ∀ index, Arranges key rows (orders index))
    (whole : ∀ index, ¬ Torn key rows (index * size)) (count : Nat) :
    (joined size count orders).Perm (before key rows (count * size)) := by
  induction count with
  | zero => simp [joined, before]
  | succ count ih =>
    have shown := (ih.trans ((arranged count).take_perm (whole count)).symm).append_right
      (cut size count (orders count))
    rw [take_cut] at shown
    rw [joined_succ]
    exact shown.trans ((arranged count).take_perm (whole (count + 1)))

/-- Two rows of one key change places. -/
theorem Arranges.swap [DecidableEq α] (arranged : Arranges key rows order) (nodup : rows.Nodup) {first second : α}
    (first_row : first ∈ rows) (second_row : second ∈ rows) (same : key first = key second) :
    Arranges key rows (order.map (Equiv.swap first second)) := by
  have kept (row : α) : key (Equiv.swap first second row) = key row := by
    rw [Equiv.swap_apply_def]
    split
    · simp_all
    · split <;> simp_all
  have closed (row : α) (member : row ∈ rows) : Equiv.swap first second row ∈ rows := by
    rw [Equiv.swap_apply_def]
    split
    · exact second_row
    · split
      · exact first_row
      · exact member
  constructor
  · refine (arranged.perm.map _).trans ?_
    rw [List.perm_ext_iff_of_nodup ((List.nodup_map_iff (Equiv.injective _)).mpr nodup) nodup]
    intro row
    rw [List.mem_map]
    constructor
    · rintro ⟨other, member, rfl⟩
      exact closed other member
    · intro member
      exact ⟨_, closed row member, Equiv.swap_apply_self _ _ _⟩
  · rw [List.pairwise_map]
    exact arranged.sorted.imp fun sorted => by rwa [kept, kept]

theorem joined_repeats {orders : Nat → List α} {first second : Nat} (lt : first < second) (within : second < count)
    (shown : row ∈ cut size first (orders first)) (again : row ∈ cut size second (orders second)) :
    ¬ (joined size count orders).Nodup := by
  intro once
  have apart := List.pairwise_iff_getElem.mp (List.nodup_flatMap.mp once).2 first second
    (by simpa using lt.trans within) (by simpa using within) lt
  simp only [List.getElem_range, Function.onFun] at apart
  exact apart shown again

/-- A boundary between two rows of one key can show one of them twice. -/
theorem torn_repeats (nodup : rows.Nodup) (positive : 0 < size) (torn : Torn key rows (index * size)) :
    ∃ orders : Nat → List α, (∀ index, Arranges key rows (orders index)) ∧
      ¬ (joined size (pageCount rows.length size) orders).Nodup := by
  classical
  obtain ⟨order, arranged⟩ := exists_arranges key rows
  obtain ⟨early, earlier, late, later, same⟩ := arranged.torn torn
  have early_row := arranged.perm.mem_iff.mp (List.mem_of_mem_take earlier)
  have late_row := arranged.perm.mem_iff.mp (List.mem_of_mem_drop later)
  obtain ⟨first, below, shown⟩ := mem_take earlier
  obtain ⟨second, above, within, there⟩ := mem_drop positive later
  rw [arranged.perm.length_eq] at within
  -- the pages from the boundary on are cut with the two rows exchanged
  let orders : Nat → List α := fun page => if page < index then order else order.map (Equiv.swap early late)
  have shown' : early ∈ cut size first (orders first) := by
    simpa only [orders, if_pos below] using shown
  have again : early ∈ cut size second (orders second) := by
    simp only [orders, if_neg (Nat.not_lt.mpr above), cut_map]
    exact List.mem_map.mpr ⟨late, there, Equiv.swap_apply_right _ _⟩
  refine ⟨orders, fun page => ?_, joined_repeats (below.trans_le above) within shown' again⟩
  dsimp only [orders]
  split
  · exact arranged
  · exact arranged.swap nodup early_row late_row same

/-- However they are arranged for each query, the pages make up the rows exactly where no
boundary tears rows of one key apart. -/
theorem joined_iff (nodup : rows.Nodup) (positive : 0 < size) :
    (∀ orders : Nat → List α, (∀ index, Arranges key rows (orders index)) →
      (joined size (pageCount rows.length size) orders).Perm rows) ↔
      ∀ index, ¬ Torn key rows (index * size) := by
  constructor
  · intro always index torn
    obtain ⟨orders, arranged, twice⟩ := torn_repeats nodup positive torn
    exact twice ((always orders arranged).nodup_iff.mpr nodup)
  · intro whole orders arranged
    have shown := joined_before arranged whole (pageCount rows.length size)
    rwa [before_all (le_pageCount rows.length positive)] at shown

end Paging
