import Mathlib.Data.Finmap
import Mathlib.Algebra.BigOperators.Group.Finset.Basic
import Mathlib.Algebra.Order.BigOperators.Group.Finset
import Mathlib.Algebra.Order.Group.Int

/-! Totals over a finite map. A quantity of the stored values is summed over all
keys; writing one key moves the total by the difference at that key alone. -/
namespace KeyedTotal
variable {κ β : Type} [DecidableEq κ] {f : β → Int} {m : Finmap fun _ : κ => β} {k : κ} {b old : β}

/-- What the key contributes to the total: nothing, where nothing is stored. -/
def share (f : β → Int) (m : Finmap fun _ : κ => β) (k : κ) : Int := (m.lookup k).elim 0 f

def total (f : β → Int) (m : Finmap fun _ : κ => β) : Int := ∑ k ∈ m.keys, share f m k

theorem share_found (found : m.lookup k = some b) : share f m k = f b := by
  rw [share, found]
  rfl

theorem share_insert_self : share f (m.insert k b) k = f b :=
  share_found (Finmap.lookup_insert m)

theorem share_insert_other {k' : κ} (different : k' ≠ k) : share f (m.insert k b) k' = share f m k' := by
  rw [share, share, Finmap.lookup_insert_of_ne m different]

theorem keys_insert : (m.insert k b).keys = insert k m.keys := by
  ext k'
  simp only [Finmap.mem_keys, Finmap.mem_insert, Finset.mem_insert]

/-- The other keys contribute the same before and after a write. -/
theorem total_erase_insert :
    ∑ k' ∈ m.keys.erase k, share f (m.insert k b) k' = ∑ k' ∈ m.keys.erase k, share f m k' :=
  Finset.sum_congr rfl fun _ member => share_insert_other (Finset.ne_of_mem_erase member)

theorem total_insert_new (absent : m.lookup k = none) :
    total f (m.insert k b) = f b + total f m := by
  have fresh : k ∉ m.keys := by
    rw [Finmap.mem_keys]
    exact Finmap.lookup_eq_none.mp absent
  have others := total_erase_insert (f := f) (m := m) (k := k) (b := b)
  rw [Finset.erase_eq_of_notMem fresh] at others
  rw [total, keys_insert, Finset.sum_insert fresh, share_insert_self, others, total]

theorem total_insert_found (found : m.lookup k = some old) :
    total f (m.insert k b) + f old = f b + total f m := by
  have present : k ∈ m.keys := by
    rw [Finmap.mem_keys]
    exact Finmap.mem_of_lookup_eq_some found
  have before := Finset.add_sum_erase m.keys (share f m) present
  have after := Finset.add_sum_erase m.keys (share f (m.insert k b)) present
  rw [share_found found] at before
  rw [share_insert_self, total_erase_insert] at after
  rw [total, total, keys_insert, Finset.insert_eq_of_mem present]
  omega

theorem share_le_total (nonneg : ∀ k, 0 ≤ share f m k) : share f m k ≤ total f m := by
  by_cases present : k ∈ m.keys
  · exact Finset.single_le_sum (fun k' _ => nonneg k') present
  · have absent : m.lookup k = none := by
      rw [Finmap.lookup_eq_none, ← Finmap.mem_keys]
      exact present
    have empty : share f m k = 0 := by
      rw [share, absent]
      rfl
    rw [empty]
    exact Finset.sum_nonneg fun k' _ => nonneg k'

end KeyedTotal
