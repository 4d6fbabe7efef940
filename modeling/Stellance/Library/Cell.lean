import Stellance.Library.Runs

/-! A part of the state that some steps read and some write. A writer who rests on an
earlier reading is overtaken where another has written in between; what is said of how
the cell may change fails through overtaken writers alone. -/
namespace Runs
variable {S L V : Type} {step : S → L → S → Prop} {start s t last : S} {trace : List (S × L)}

structure Cell (step : S → L → S → Prop) (V : Type) where
  value : S → Option V
  written : L → Option V
  writes : ∀ {s l t v}, step s l t → written l = some v → value t = some v
  keeps : ∀ {s l t v}, step s l t → written l = none → value s = some v → value t = some v

namespace Cell
variable (cell : Cell step V) (Good : V → V → Prop) (reads : L → L → Prop)

/-- Whatever the cell holds in the course of the run is good with what it held before. -/
def Upheld (start : S) (trace : List (S × L)) : Prop :=
  ∀ earlier between rest s t, trace = earlier ++ between ++ rest → Run step start earlier s →
    Run step s between t → ∀ old, cell.value s = some old → ∃ new, cell.value t = some new ∧ Good old new

/-- Between a reading and the write that rests on it something else was written, with
which that write is not good. -/
def Overtaken (trace : List (S × L)) : Prop :=
  ∃ earlier reading between writing rest old new,
    trace = earlier ++ reading :: (between ++ writing :: rest) ∧ reads reading.2 writing.2 ∧
      (∃ point ∈ between, cell.written point.2 = some old) ∧
      cell.written writing.2 = some new ∧ ¬ Good old new

variable {cell Good reads}

/-- What the cell holds is what it held, or what some step wrote. -/
theorem origin (run : Run step s trace t) {old : V} (held : cell.value s = some old) :
    ∃ new, cell.value t = some new ∧ (new = old ∨ ∃ point ∈ trace, cell.written point.2 = some new) := by
  induction run with
  | refl => exact ⟨old, held, .inl rfl⟩
  | @tail trace t l u run taken ih =>
    obtain ⟨middle, there, source⟩ := ih
    cases written : cell.written l with
    | none =>
      refine ⟨middle, cell.keeps taken written there, source.imp_right ?_⟩
      rintro ⟨point, member, wrote⟩
      exact ⟨point, List.mem_append_left _ member, wrote⟩
    | some new =>
      exact ⟨new, cell.writes taken written,
        .inr ⟨(t, l), List.mem_append_right _ List.mem_cons_self, written⟩⟩

/-- What the cell comes to hold was written, unless it can appear with it. -/
theorem wrote (run : Run step s trace t) {v : V} (other : cell.value s ≠ some v)
    (appears : ∀ {s l t}, step s l t → cell.value s = none → cell.written l = none → cell.value t ≠ some v)
    (held : cell.value t = some v) :
    ∃ earlier point rest, trace = earlier ++ point :: rest ∧ cell.written point.2 = some v := by
  induction run with
  | refl => exact absurd held other
  | @tail trace t l u run taken ih =>
    cases written : cell.written l with
    | some new =>
      obtain rfl := Option.some.inj (held.symm.trans (cell.writes taken written))
      exact ⟨trace, (t, l), [], rfl, written⟩
    | none =>
      cases before : cell.value t with
      | none => exact absurd held (appears taken before written)
      | some old =>
        obtain rfl := Option.some.inj (held.symm.trans (cell.keeps taken written before))
        obtain ⟨earlier, point, rest, rfl, wrote⟩ := ih before
        exact ⟨earlier, point, rest ++ [(t, l)], by simp, wrote⟩

/-- Where every write is good with what its reading found, the cell is upheld by
exactly the runs in which no write is overtaken. -/
theorem upheld_iff (refl : ∀ v, Good v v) (trans : ∀ {a b c}, Good a b → Good b c → Good a c)
    (quiet : ∀ {reading writing}, reads reading writing → cell.written reading = none)
    (fresh : ∀ {trace t l u new}, Run step start trace t → step t l u → cell.written l = some new →
      ∃ earlier reading between old, trace = earlier ++ reading :: between ∧ reads reading.2 l ∧
        cell.value reading.1 = some old ∧ Good old new)
    (run : Run step start trace last) :
    cell.Upheld Good start trace ↔ ¬ cell.Overtaken Good reads trace := by
  constructor
  · rintro upheld ⟨earlier, reading, between, writing, rest, old, new, rfl, _, ⟨point, member, wrote⟩,
      writes, bad⟩
    obtain ⟨before, after, rfl⟩ := List.append_of_mem member
    have whole : earlier ++ reading :: (before ++ point :: after ++ writing :: rest) =
        (earlier ++ reading :: before ++ [point]) ++ (after ++ [writing]) ++ rest := by
      simp only [List.append_assoc, List.cons_append, List.nil_append]
    rw [whole] at run
    obtain ⟨t, whole', _⟩ := run.split
    obtain ⟨s, first, second⟩ := whole'.split
    have held := cell.writes first.last.2 wrote
    obtain ⟨value, there, good⟩ := upheld _ _ _ s t whole first second old held
    obtain rfl := Option.some.inj ((cell.writes second.last.2 writes).symm.trans there)
    exact bad good
  · intro clean earlier between rest s t whole first second old held
    induction second generalizing rest with
    | refl => exact ⟨old, held, refl old⟩
    | @tail between t l u run' taken ih =>
      rw [← List.append_assoc, List.append_assoc] at whole
      obtain ⟨middle, there, good⟩ := ih _ whole
      cases written : cell.written l with
      | none => exact ⟨middle, cell.keeps taken written there, good⟩
      | some new =>
        refine ⟨new, cell.writes taken written, trans good ?_⟩
        obtain ⟨before, reading, since, seen, cut, reads', found, good'⟩ :=
          fresh (first.trans run') taken written
        have path := first.trans run'
        rw [cut] at path
        obtain ⟨_, _, later⟩ := path.split
        obtain ⟨rfl, _⟩ := later.first
        obtain ⟨middle', there', source⟩ := cell.origin later found
        obtain rfl := Option.some.inj (there.symm.trans there')
        rcases source with rfl | ⟨point, member, wrote⟩
        · exact good'
        · by_contra bad
          refine clean ⟨before, reading, since, (t, l), rest, middle, new, ?_, reads', ?_, written, bad⟩
          · rw [whole, cut]
            simp only [List.append_assoc, List.cons_append, List.nil_append]
          · rcases List.mem_cons.mp member with rfl | member
            · rw [quiet reads'] at wrote
              contradiction
            · exact ⟨point, member, wrote⟩

/-- It takes two writes for one to be overtaken. -/
theorem not_overtaken (few : (trace.filterMap fun point => cell.written point.2).length ≤ 1) :
    ¬ cell.Overtaken Good reads trace := by
  rintro ⟨earlier, reading, between, writing, rest, old, new, rfl, _, ⟨point, member, wrote⟩, writes, _⟩
  have last : [writing].Sublist (writing :: rest) := List.singleton_sublist.mpr List.mem_cons_self
  have both : [point, writing].Sublist (earlier ++ reading :: (between ++ writing :: rest)) :=
    (((List.singleton_sublist.mpr member).append last).cons reading).trans
      (List.sublist_append_right _ _)
  have two := (both.filterMap fun point => cell.written point.2).length_le
  simp only [List.filterMap_cons, wrote, writes, List.length_cons] at two
  omega

end Cell

end Runs
