import Mathlib.Data.List.Nodup
import Mathlib.Data.List.Perm.Subperm
import Mathlib.Algebra.BigOperators.Group.List.Basic
import Mathlib.Algebra.Order.BigOperators.Group.List
import Mathlib.Tactic.Linarith

/-! Tables of a relational store: rows in insertion order under a key that no two of
them share. Writing one row leaves the others, and a sum over a selection moves by
the difference at that row. -/

structure Table {ρ κ : Type} (key : ρ → κ) where
  rows : List ρ
  nodup : (rows.map key).Nodup

namespace Table
variable {ρ κ : Type} {key : ρ → κ} [DecidableEq κ] {t t' : Table key} {k k' : κ} {row other : ρ}
  {f : ρ → ρ} {p : ρ → Bool}

omit [DecidableEq κ] in
theorem ext {t t' : Table key} (rows : t.rows = t'.rows) : t = t' := by
  cases t
  cases rows
  rfl

def empty : Table key := ⟨[], List.nodup_nil⟩

def find (t : Table key) (k : κ) : Option ρ := t.rows.find? fun row => key row = k

def select (t : Table key) (p : ρ → Bool) : List ρ := t.rows.filter p

/-- A new row, refused where its key is taken. -/
def insert (t : Table key) (row : ρ) : Option (Table key) :=
  if fresh : key row ∉ t.rows.map key then
    some ⟨t.rows ++ [row], by
      rw [List.map_append, List.nodup_append]
      refine ⟨t.nodup, List.nodup_singleton _, ?_⟩
      intro a member b single
      obtain rfl := List.mem_singleton.mp single
      rintro rfl
      exact fresh member⟩
  else none

/-- The row under a key, rewritten in place. -/
def modify (t : Table key) (k : κ) (f : ρ → ρ) (keeps : ∀ row, key (f row) = key row) : Table key :=
  ⟨t.rows.map fun row => if key row = k then f row else row, by
    rw [List.map_map]
    have same : (key ∘ fun row => if key row = k then f row else row) = key := by
      funext row
      simp only [Function.comp_apply]
      split
      · exact keeps row
      · rfl
    rw [same]
    exact t.nodup⟩

theorem find_eq_some : t.find k = some row ↔ row ∈ t.rows ∧ key row = k := by
  constructor
  · intro found
    exact ⟨List.mem_of_find?_eq_some found, by simpa using List.find?_some found⟩
  · rintro ⟨member, rfl⟩
    obtain ⟨found, same⟩ : ∃ other, t.find (key row) = some other := by
      cases missing : t.find (key row) with
      | some other => exact ⟨other, rfl⟩
      | none => exact absurd (List.find?_eq_none.mp missing row member) (by simp)
    have at' := List.mem_of_find?_eq_some same
    have equal : key found = key row := by simpa using List.find?_some same
    rw [same, List.inj_on_of_nodup_map t.nodup at' member equal]

theorem find_eq_none : t.find k = none ↔ ∀ row ∈ t.rows, key row ≠ k := by
  simp [find]

theorem mem_of_find (found : t.find k = some row) : row ∈ t.rows :=
  (find_eq_some.mp found).1

theorem key_of_find (found : t.find k = some row) : key row = k :=
  (find_eq_some.mp found).2

theorem find_of_mem (member : row ∈ t.rows) : t.find (key row) = some row :=
  find_eq_some.mpr ⟨member, rfl⟩

theorem exists_find (member : k ∈ t.rows.map key) : ∃ row, t.find k = some row := by
  obtain ⟨row, stored, rfl⟩ := List.mem_map.mp member
  exact ⟨row, find_of_mem stored⟩

theorem not_mem_keys (absent : t.find k = none) : k ∉ t.rows.map key := by
  intro member
  obtain ⟨row, found⟩ := exists_find member
  rw [absent] at found
  contradiction

omit [DecidableEq κ] in
theorem mem_select : row ∈ t.select p ↔ row ∈ t.rows ∧ p row = true :=
  List.mem_filter

/-! ### Inserting -/

theorem insert_some (inserted : t.insert row = some t') :
    t.find (key row) = none ∧ t'.rows = t.rows ++ [row] := by
  unfold insert at inserted
  split at inserted
  · rename_i fresh
    obtain rfl := Option.some.inj inserted
    refine ⟨?_, rfl⟩
    rw [find_eq_none]
    intro other member same
    exact fresh (List.mem_map.mpr ⟨other, member, same⟩)
  · contradiction

theorem exists_insert (absent : t.find (key row) = none) : ∃ t', t.insert row = some t' := by
  unfold insert
  rw [dif_pos]
  · exact ⟨_, rfl⟩
  · rintro taken
    obtain ⟨other, member, same⟩ := List.mem_map.mp taken
    exact find_eq_none.mp absent other member same

theorem find_insert (inserted : t.insert row = some t') :
    t'.find k = if key row = k then some row else t.find k := by
  obtain ⟨absent, rows⟩ := insert_some inserted
  unfold find at absent ⊢
  rw [rows, List.find?_append]
  split
  · rename_i same
    subst same
    rw [absent]
    simp
  · rename_i different
    simp [different]

theorem select_insert (inserted : t.insert row = some t') :
    t'.select p = t.select p ++ if p row then [row] else [] := by
  unfold select
  rw [(insert_some inserted).2, List.filter_append]
  cases keep : p row <;> simp [keep]

/-- Several new rows, or none of them. -/
def insertAll (t : Table key) : List ρ → Option (Table key)
  | [] => some t
  | row :: rest => (t.insert row).bind (·.insertAll rest)

theorem insertAll_rows {rows : List ρ} (inserted : t.insertAll rows = some t') :
    t'.rows = t.rows ++ rows := by
  induction rows generalizing t with
  | nil =>
    obtain rfl := Option.some.inj inserted
    exact (List.append_nil _).symm
  | cons row rest ih =>
    obtain ⟨between, first, later⟩ := Option.bind_eq_some_iff.mp inserted
    rw [ih later, (insert_some first).2, List.append_assoc]
    rfl

/-- New rows go in where their keys are free and differ. -/
theorem exists_insertAll {rows : List ρ} (absent : ∀ row ∈ rows, t.find (key row) = none)
    (differ : (rows.map key).Nodup) : ∃ t', t.insertAll rows = some t' := by
  induction rows generalizing t with
  | nil => exact ⟨t, rfl⟩
  | cons row rest ih =>
    rw [List.map_cons, List.nodup_cons] at differ
    obtain ⟨between, first⟩ := exists_insert (absent row List.mem_cons_self)
    have free : ∀ other ∈ rest, between.find (key other) = none := by
      intro other member
      rw [find_insert first, if_neg]
      · exact absent other (List.mem_cons_of_mem _ member)
      · exact fun same => differ.1 (List.mem_map.mpr ⟨other, member, same.symm⟩)
    obtain ⟨t', later⟩ := ih free differ.2
    exact ⟨t', Option.bind_eq_some_iff.mpr ⟨between, first, later⟩⟩

theorem select_insertAll {rows : List ρ} (inserted : t.insertAll rows = some t') :
    t'.select p = t.select p ++ rows.filter p := by
  unfold select
  rw [insertAll_rows inserted, List.filter_append]

theorem find_insertAll {rows : List ρ} (inserted : t.insertAll rows = some t')
    (found : t.find k = some row) : t'.find k = some row := by
  obtain ⟨member, at'⟩ := find_eq_some.mp found
  apply find_eq_some.mpr
  refine ⟨?_, at'⟩
  rw [insertAll_rows inserted]
  exact List.mem_append_left _ member

/-! ### Keeping -/

/-- The rows that meet a condition, as a table of their own. -/
def keep (t : Table key) (p : ρ → Bool) : Table key :=
  ⟨t.rows.filter p, (List.filter_sublist.map key).nodup t.nodup⟩

/-- The row under a key, taken away. -/
def remove (t : Table key) (k : κ) : Table key := t.keep fun row => key row ≠ k

theorem find_keep : (t.keep p).find k = (t.find k).filter p := by
  cases found : t.find k with
  | none =>
    refine find_eq_none.mpr fun row member => ?_
    exact find_eq_none.mp found row (List.mem_filter.mp member).1
  | some row =>
    obtain ⟨member, at'⟩ := find_eq_some.mp found
    cases kept : p row with
    | true =>
      rw [Option.filter_some_pos kept]
      exact find_eq_some.mpr ⟨List.mem_filter.mpr ⟨member, kept⟩, at'⟩
    | false =>
      rw [Option.filter_some_neg (by simp [kept])]
      refine find_eq_none.mpr fun other stored same => ?_
      obtain ⟨stored, kept'⟩ := List.mem_filter.mp stored
      have : other = row := List.inj_on_of_nodup_map t.nodup stored member (same.trans at'.symm)
      rw [this, kept] at kept'
      contradiction

omit [DecidableEq κ] in
theorem select_keep (q : ρ → Bool) : (t.keep p).select q = (t.select q).filter p := by
  unfold select keep
  rw [List.filter_filter, List.filter_filter]
  exact List.filter_congr fun row _ => Bool.and_comm _ _

/-- A table that keeps a row takes it in itself. -/
theorem keep_insert (inserted : t.insert row = some t') :
    if p row then (t.keep p).insert row = some (t'.keep p) else t'.keep p = t.keep p := by
  obtain ⟨absent, rows⟩ := insert_some inserted
  split
  · rename_i kept
    have free : (t.keep p).find (key row) = none := by rw [find_keep, absent, Option.filter_none]
    obtain ⟨both, there⟩ := exists_insert free
    rw [there]
    refine congrArg some (ext ?_)
    rw [(insert_some there).2]
    unfold keep
    simp [rows, kept]
  · rename_i dropped
    refine ext ?_
    unfold keep
    simp [rows, dropped]

theorem keep_remove : (t.remove k).keep p = (t.keep p).remove k := by
  refine ext ?_
  change (t.rows.filter _).filter _ = (t.rows.filter _).filter _
  rw [List.filter_filter, List.filter_filter]
  exact List.filter_congr fun row _ => Bool.and_comm _ _

/-- Taking away what is not kept changes nothing of the rest. -/
theorem keep_remove_other (foreign : ∀ row, t.find k = some row → p row = false) :
    (t.remove k).keep p = t.keep p := by
  refine ext ?_
  change (t.rows.filter _).filter _ = t.rows.filter _
  rw [List.filter_filter]
  refine List.filter_congr fun row member => ?_
  cases kept : p row with
  | false => rfl
  | true =>
    rw [Bool.true_and, decide_eq_true_eq]
    rintro rfl
    have dropped := foreign row (find_of_mem member)
    rw [dropped] at kept
    contradiction

/-! ### Modifying -/

variable (keeps : ∀ row, key (f row) = key row)

theorem find_modify : (t.modify k f keeps).find k' =
    if k' = k then (t.find k).map f else t.find k' := by
  have both : ∀ row, decide (key (if key row = k then f row else row) = k') = decide (key row = k') := by
    intro row
    split
    · rw [keeps]
    · rfl
  unfold find modify
  rw [List.find?_map]
  simp only [Function.comp_def, both]
  split
  · rename_i same
    subst same
    cases found : List.find? (fun row => decide (key row = k')) t.rows with
    | none => rfl
    | some row =>
      have at' : key row = k' := by simpa using List.find?_some found
      simp [at']
  · rename_i different
    cases found : List.find? (fun row => decide (key row = k')) t.rows with
    | none => rfl
    | some row =>
      have at' : key row = k' := by simpa using List.find?_some found
      simp [at', different]

theorem find_modify_self (found : t.find k = some row) :
    (t.modify k f keeps).find k = some (f row) := by
  rw [find_modify, if_pos rfl, found]
  rfl

theorem find_modify_other (different : k' ≠ k) : (t.modify k f keeps).find k' = t.find k' := by
  rw [find_modify, if_neg different]

/-- The rows that meet a condition, rewritten in place. -/
def updateMany (t : Table key) (p : ρ → Bool) (f : ρ → ρ) (keeps : ∀ row, key (f row) = key row) :
    Table key :=
  ⟨t.rows.map fun row => if p row then f row else row, by
    rw [List.map_map]
    have same : (key ∘ fun row => if p row then f row else row) = key := by
      funext row
      simp only [Function.comp_apply]
      split
      · exact keeps row
      · rfl
    rw [same]
    exact t.nodup⟩

omit [DecidableEq κ] in
theorem keys_updateMany : (t.updateMany p f keeps).rows.map key = t.rows.map key := by
  unfold updateMany
  rw [List.map_map]
  apply List.map_congr_left
  intro row _
  simp only [Function.comp_apply]
  split
  · exact keeps row
  · rfl

theorem find_updateMany : (t.updateMany p f keeps).find k =
    (t.find k).map fun row => if p row then f row else row := by
  have both : ∀ row, decide (key (if p row then f row else row) = k) = decide (key row = k) := by
    intro row
    split
    · rw [keeps]
    · rfl
  unfold find updateMany
  rw [List.find?_map]
  simp only [Function.comp_def, both]

/-- A selection that does not look at what is rewritten has the same rows, rewritten. -/
theorem select_modify (blind : ∀ row, p (f row) = p row) :
    (t.modify k f keeps).select p =
      (t.select p).map fun row => if key row = k then f row else row := by
  unfold select modify
  rw [List.filter_map]
  congr 1
  apply List.filter_congr
  intro row _
  simp only [Function.comp_apply]
  split
  · exact blind row
  · rfl

/-- Keeping rows that are not told apart by what is rewritten. -/
theorem keep_modify (blind : ∀ row, p (f row) = p row) :
    (t.modify k f keeps).keep p = (t.keep p).modify k f keeps :=
  ext (select_modify keeps blind)

omit [DecidableEq κ] in
theorem keep_updateMany {q : ρ → Bool} (blind : ∀ row, q (f row) = q row) :
    (t.updateMany p f keeps).keep q = (t.keep q).updateMany p f keeps := by
  refine ext ?_
  change (t.rows.map _).filter _ = (t.rows.filter _).map _
  rw [List.filter_map]
  congr 1
  refine List.filter_congr fun row _ => ?_
  simp only [Function.comp_apply]
  split
  · exact blind row
  · rfl

/-- Where no row under the key is kept, a rewriting does not show. -/
theorem modify_absent (absent : t.find k = none) : t.modify k f keeps = t := by
  refine ext ?_
  unfold modify
  refine (List.map_congr_left fun row member => ?_).trans (List.map_id _)
  exact if_neg (find_eq_none.mp absent row member)

omit [DecidableEq κ] in
theorem updateMany_none (none' : ∀ row ∈ t.rows, p row = false) : t.updateMany p f keeps = t := by
  refine ext ?_
  unfold updateMany
  refine (List.map_congr_left fun row member => ?_).trans (List.map_id _)
  rw [none' row member]
  rfl

/-- Rewriting the row under a key moves a sum over rows of distinct keys by what the
row itself gains. -/
theorem sum_rewrite {rows : List ρ} {g : ρ → Nat} {more : Nat} (unique : (rows.map key).Nodup)
    (inside : row ∈ rows) (at' : key row = k) (grows : g (f row) = g row + more) :
    ((rows.map fun row => if key row = k then f row else row).map g).sum =
      (rows.map g).sum + more := by
  rw [List.map_map]
  induction rows with
  | nil => contradiction
  | cons head tail ih =>
    rw [List.map_cons, List.nodup_cons] at unique
    simp only [List.map_cons, List.sum_cons, Function.comp_apply]
    by_cases here : key head = k
    · have others : ∀ row ∈ tail, (g ∘ fun row => if key row = k then f row else row) row = g row := by
        intro row later
        have different : key row ≠ k := by
          intro same
          exact unique.1 (List.mem_map.mpr ⟨row, later, same.trans here.symm⟩)
        simp only [Function.comp_apply, if_neg different]
      have same : head = row := by
        rcases List.mem_cons.mp inside with equal | later
        · exact equal.symm
        · exact absurd (List.mem_map.mpr ⟨row, later, at'.trans here.symm⟩) unique.1
      rw [if_pos here, List.map_congr_left others, same, grows]
      omega
    · have later : row ∈ tail := by
        rcases List.mem_cons.mp inside with equal | later
        · exact absurd (equal ▸ at') here
        · exact later
      rw [if_neg here, ih unique.2 later]
      omega

/-- What one reference adds to a selection: its row's part, if the selection has it. -/
theorem sum_at_key (t : Table key) (p : ρ → Bool) (k : κ) (n : Nat) :
    ((t.select p).map fun row => if k = key row then n else 0).sum =
      if (t.find k).any p then n else 0 := by
  obtain ⟨rows, nodup⟩ := t
  unfold select find
  induction rows with
  | nil => rfl
  | cons head tail ih =>
    obtain ⟨fresh, unique⟩ := List.nodup_cons.mp nodup
    by_cases here : key head = k
    · have absent : tail.find? (fun row => key row = k) = none := by
        rw [List.find?_eq_none]
        intro row member
        simp only [decide_eq_true_eq]
        rintro rfl
        exact fresh (List.mem_map.mpr ⟨row, member, here.symm⟩)
      have rest := ih unique
      rw [absent] at rest
      rw [List.find?_cons_of_pos (by simpa using here), Option.any_some]
      cases keep : p head with
      | true =>
        rw [List.filter_cons_of_pos keep, List.map_cons, List.sum_cons, rest, if_pos here.symm]
        rfl
      | false =>
        rw [List.filter_cons_of_neg (by simp [keep]), rest]
        rfl
    · rw [List.find?_cons_of_neg (by simpa using here), ← ih unique]
      cases keep : p head with
      | true =>
        rw [List.filter_cons_of_pos keep, List.map_cons, List.sum_cons, if_neg (Ne.symm here),
          Nat.zero_add]
      | false => rw [List.filter_cons_of_neg (by simp [keep])]

/-- Under one key at most one row is counted. -/
theorem countP_key (t : Table key) (p : ρ → Bool) (k : κ) :
    t.rows.countP (fun row => key row = k ∧ p row) = if (t.find k).any p then 1 else 0 := by
  have counted := t.sum_at_key p k 1
  rw [← counted]
  unfold select
  induction t.rows with
  | nil => rfl
  | cons head tail ih =>
    cases keep : p head with
    | true =>
      rw [List.filter_cons_of_pos keep, List.map_cons, List.sum_cons, ← ih, List.countP_cons]
      by_cases here : key head = k
      · simp [here, keep, Nat.add_comm]
      · simp [here, Ne.symm here]
    | false =>
      rw [List.filter_cons_of_neg (by simp [keep]), ← ih, List.countP_cons]
      simp [keep]

/-- Taking a row away, it is counted no more. -/
theorem countP_remove (t : Table key) (p : ρ → Bool) (k : κ) :
    (t.remove k).rows.countP p + (if (t.find k).any p then 1 else 0) = t.rows.countP p := by
  have other : (t.remove k).rows.countP p = t.rows.countP fun row => p row && decide (key row ≠ k) :=
    List.countP_filter
  have whole : t.rows.countP p = (t.rows.filter fun row => key row = k).countP p +
      (t.rows.filter fun row => !decide (key row = k)).countP p := List.countP_eq_countP_filter_add _ _ _
  rw [← t.countP_key p k, other, whole, List.countP_filter, List.countP_filter, Nat.add_comm]
  congr 1
  · refine List.countP_congr fun row _ => ?_
    simp [and_comm]
  · refine List.countP_congr fun row _ => ?_
    simp

/-- Taking a row away, it does not matter that it was rewritten. -/
theorem remove_modify (keeps : ∀ row, key (f row) = key row) (t : Table key) (k : κ) :
    (t.modify k f keeps).remove k = t.remove k := by
  refine ext ?_
  change (t.rows.map fun row => if key row = k then f row else row).filter (fun row => key row ≠ k) =
    t.rows.filter fun row => key row ≠ k
  induction t.rows with
  | nil => rfl
  | cons head tail ih =>
    rw [List.map_cons, List.filter_cons, List.filter_cons, ih]
    by_cases here : key head = k
    · simp [here, keeps]
    · simp [here]

/-- A rewriting of one row moves a count by that row. -/
theorem countP_modify (keeps : ∀ row, key (f row) = key row) (t : Table key) (p : ρ → Bool) (k : κ) :
    (t.modify k f keeps).rows.countP p + (if (t.find k).any p then 1 else 0) =
      t.rows.countP p + if (t.find k).any (fun row => p (f row)) then 1 else 0 := by
  have after := countP_remove (t.modify k f keeps) p k
  have before := countP_remove t p k
  have image : ((t.modify k f keeps).find k).any p = (t.find k).any fun row => p (f row) := by
    rw [find_modify keeps, if_pos rfl, Option.any_map]
  rw [remove_modify keeps, image] at after
  omega

omit [DecidableEq κ] in
/-- What a count finds after the rows that meet a condition were rewritten. -/
theorem countP_updateMany (keeps : ∀ row, key (f row) = key row) (t : Table key) (p q : ρ → Bool) :
    (t.updateMany p f keeps).rows.countP q = t.rows.countP fun row => q (if p row then f row else row) :=
  List.countP_map

/-- A sum over references to selected rows, taken row by row. -/
theorem sum_grouped {A : Type} (t : Table key) (p : ρ → Bool) (ref : A → κ) (g : A → Nat)
    (xs : List A) :
    ((xs.filter fun x => (t.find (ref x)).any p).map g).sum =
      ((t.select p).map fun row => ((xs.filter fun x => ref x = key row).map g).sum).sum := by
  induction xs with
  | nil => simp
  | cons x xs ih =>
    have here := t.sum_at_key p (ref x) (g x)
    have each : ∀ row, (((x :: xs).filter fun x => ref x = key row).map g).sum =
        (if ref x = key row then g x else 0) + ((xs.filter fun x => ref x = key row).map g).sum := by
      intro row
      by_cases same : ref x = key row <;> simp [same]
    simp only [each]
    rw [List.sum_map_add, here, ← ih]
    cases keep : (t.find (ref x)).any p <;> simp [keep]

/-- A sum taken key by key. -/
theorem sum_by_key {A K : Type} [DecidableEq K] {ks : List K} (distinct : ks.Nodup) (ref : A → K) (g : A → Nat)
    {xs : List A} (covered : ∀ x ∈ xs, ref x ∈ ks) :
    (ks.map fun k => ((xs.filter fun x => ref x = k).map g).sum).sum = (xs.map g).sum := by
  let keys : Table (fun k : K => k) := ⟨ks, by simpa using distinct⟩
  have grouped := keys.sum_grouped (fun _ => true) ref g xs
  have all : keys.select (fun _ => true) = ks := List.filter_true _
  have each : xs.filter (fun x => (keys.find (ref x)).any fun _ => true) = xs := by
    refine List.filter_eq_self.mpr fun x member => ?_
    rw [show keys.find (ref x) = some (ref x) from find_of_mem (covered x member)]
    rfl
  rw [all, each] at grouped
  exact grouped.symm

/-- A sum over references, taken over the rows they refer to. -/
theorem sum_filterMap {A B : Type} {xs : List A} {f : A → Option B} {g : A → Int} {h : B → Nat}
    (each : ∀ x ∈ xs, ∃ b, f x = some b ∧ g x = h b) :
    (xs.map g).sum = (((xs.filterMap f).map h).sum : Nat) := by
  induction xs with
  | nil => rfl
  | cons x xs ih =>
    obtain ⟨b, found, same⟩ := each x List.mem_cons_self
    have rest := ih fun y member => each y (List.mem_cons_of_mem _ member)
    rw [List.filterMap_cons_some found, List.map_cons, List.map_cons, List.sum_cons, List.sum_cons,
      same, rest]
    exact (Nat.cast_add _ _).symm

/-- A sum that bounds another term by term reaches it only in every term. -/
theorem sum_eq_iff {A : Type} {xs : List A} {f g : A → Int} (le : ∀ x ∈ xs, g x ≤ f x) :
    (xs.map f).sum = (xs.map g).sum ↔ ∀ x ∈ xs, f x = g x := by
  induction xs with
  | nil => simp
  | cons x xs ih =>
    have here := le x List.mem_cons_self
    have later := fun y member => le y (List.mem_cons_of_mem _ member)
    have rest := List.sum_le_sum later
    rw [List.map_cons, List.map_cons, List.sum_cons, List.sum_cons, List.forall_mem_cons, ← ih later]
    omega

/-- Rows of distinct keys that each have an equal among others come to no more than those. -/
theorem sum_covered {A B K : Type} {xs : List A} {ys : List B} {f : A → K × Nat} {g : B → K × Nat}
    (distinct : (xs.map fun x => (f x).1).Nodup) (covered : ∀ x ∈ xs, ∃ y ∈ ys, g y = f x) :
    (xs.map fun x => (f x).2).sum ≤ (ys.map fun y => (g y).2).sum := by
  have nodup : (xs.map f).Nodup := by
    refine List.Nodup.of_map Prod.fst ?_
    rw [List.map_map]
    exact distinct
  have inside : xs.map f ⊆ ys.map g := by
    intro pair member
    obtain ⟨x, listed, rfl⟩ := List.mem_map.mp member
    obtain ⟨y, there, same⟩ := covered x listed
    exact List.mem_map.mpr ⟨y, there, same⟩
  obtain ⟨chosen, permuted, sublist⟩ := nodup.subperm inside
  have bound := (sublist.map Prod.snd).sum_le_sum fun _ _ => Nat.zero_le _
  rw [(permuted.map Prod.snd).sum_eq, List.map_map, List.map_map] at bound
  exact bound

end Table
