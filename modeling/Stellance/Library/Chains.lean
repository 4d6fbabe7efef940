import Mathlib.Data.List.Nodup
import Mathlib.Data.List.Pairwise
import Mathlib.Data.List.Perm.Basic
import Mathlib.Logic.Relation

/-! Keys that point to at most one other. They form chains where the lists of a family hold
every key once and each key points to the one after it, the last of a list to none. New
keys start a chain or go on with one that ended. -/

structure Chains {κ : Type} (next : κ → Option κ) (keys : List κ) (chains : List (List κ)) : Prop where
  nodup : keys.Nodup
  covers : chains.flatten.Perm keys
  nonempty : [] ∉ chains
  linked : ∀ chain ∈ chains, ∀ before k after, chain = before ++ k :: after → next k = after.head?

namespace Chains
variable {κ : Type} {next next' : κ → Option κ} {keys : List κ} {chains : List (List κ)} {k k' a b c : κ}

theorem empty : Chains next [] [] :=
  ⟨List.nodup_nil, .nil, List.not_mem_nil, nofun⟩

theorem chain_nodup (formed : Chains next keys chains) {chain : List κ} (member : chain ∈ chains) :
    chain.Nodup :=
  (List.nodup_flatten.mp (formed.covers.nodup_iff.mpr formed.nodup)).1 chain member

theorem mem_keys (formed : Chains next keys chains) : k ∈ keys ↔ ∃ chain ∈ chains, k ∈ chain := by
  rw [← formed.covers.mem_iff, List.mem_flatten]

/-! ### New keys -/

/-- A key of its own starts a chain. -/
theorem start (formed : Chains next keys chains) (fresh : k ∉ keys) (ends : next' k = none)
    (same : ∀ a ∈ keys, next' a = next a) : Chains next' (keys ++ [k]) (chains ++ [[k]]) where
  nodup := List.nodup_append.mpr ⟨formed.nodup, List.nodup_singleton _, by
    rintro a member _ single rfl
    exact fresh (List.mem_singleton.mp single ▸ member)⟩
  covers := by
    rw [List.flatten_append]
    exact formed.covers.append_right _
  nonempty := by
    simpa using formed.nonempty
  linked := by
    intro chain member before a after cut
    rcases List.mem_append.mp member with old | new
    · rw [same a (formed.mem_keys.mpr ⟨chain, old, cut ▸ by simp⟩)]
      exact formed.linked chain old before a after cut
    · obtain rfl := List.mem_singleton.mp new
      obtain ⟨rfl, rfl, rfl⟩ : before = [] ∧ a = k ∧ after = [] := by
        cases before <;> simp_all
      exact ends

/-- A key of one chain is in no other. -/
theorem apart (formed : Chains next keys chains) {front back : List (List κ)} {chain other : List κ}
    (whole : chains = front ++ chain :: back) (inside : a ∈ chain) (elsewhere : other ∈ front ∨ other ∈ back) :
    a ∉ other := by
  intro inside'
  have all := formed.covers.nodup_iff.mpr formed.nodup
  rw [whole, List.flatten_append, List.flatten_cons, List.nodup_append] at all
  obtain ⟨_, rest, disjoint⟩ := all
  rcases elsewhere with left | right
  · have here := List.mem_append_left back.flatten inside
    exact disjoint a (List.mem_flatten.mpr ⟨other, left, inside'⟩) a here rfl
  · exact (List.nodup_append.mp rest).2.2 a inside a (List.mem_flatten.mpr ⟨other, right, inside'⟩) rfl

/-- A chain that ends at a key points on from it as before, but for the new end. -/
theorem linked_snoc (formed : Chains next keys chains) {before pre post : List κ}
    (member : before ++ [k] ∈ chains) (ended : next k = none) (points : next' k = some k')
    (ends : next' k' = none) (same : ∀ a ∈ keys, a ≠ k → next' a = next a)
    (cut : before ++ [k] ++ [k'] = pre ++ a :: post) : next' a = post.head? := by
  rcases List.eq_nil_or_concat post with rfl | ⟨init, last, rfl⟩
  · obtain ⟨_, same'⟩ := List.append_inj' cut rfl
    obtain rfl := List.head_eq_of_cons_eq same'
    exact ends
  · rw [List.concat_eq_append] at cut ⊢
    rw [← List.cons_append, ← List.append_assoc] at cut
    obtain ⟨old, same'⟩ := List.append_inj' cut rfl
    obtain rfl := List.head_eq_of_cons_eq same'
    cases init with
    | nil =>
      -- the end so far
      obtain ⟨_, same'⟩ := List.append_inj' old rfl
      obtain rfl := List.head_eq_of_cons_eq same'
      exact points
    | cons x init =>
      have inner := formed.linked _ member pre a (x :: init) old
      have inside : a ∈ keys := formed.mem_keys.mpr ⟨_, member, old ▸ by simp⟩
      have differ : a ≠ k := by
        rintro rfl
        rw [ended] at inner
        contradiction
      rw [same a inside differ, inner]
      rfl

/-- The end of a chain points to a key of its own. -/
theorem extend (formed : Chains next keys chains) (known : k ∈ keys) (ended : next k = none)
    (fresh : k' ∉ keys) (points : next' k = some k') (ends : next' k' = none)
    (same : ∀ a ∈ keys, a ≠ k → next' a = next a) :
    ∃ chains', Chains next' (keys ++ [k']) chains' ∧ chains'.map List.head? = chains.map List.head? := by
  obtain ⟨chain, member, inside⟩ := formed.mem_keys.mp known
  obtain ⟨front, back, whole⟩ := List.append_of_mem member
  obtain ⟨before, after, rfl⟩ := List.append_of_mem inside
  obtain rfl : after = [] := by
    have last := formed.linked _ member before k after rfl
    rw [ended] at last
    exact List.head?_eq_none_iff.mp last.symm
  have elsewhere : ∀ other, other ∈ front ∨ other ∈ back → ∀ pre a post, other = pre ++ a :: post →
      next' a = post.head? := by
    intro other away pre a post cut
    have old : other ∈ chains := by
      rw [whole, List.mem_append, List.mem_cons]
      exact away.imp_right .inr
    have here : a ∈ other := cut ▸ by simp
    have differ : a ≠ k := by
      rintro rfl
      exact formed.apart whole inside away here
    rw [same a (formed.mem_keys.mpr ⟨other, old, here⟩) differ]
    exact formed.linked other old pre a post cut
  refine ⟨front ++ (before ++ [k] ++ [k']) :: back, ⟨?_, ?_, ?_, ?_⟩, ?_⟩
  · refine List.nodup_append.mpr ⟨formed.nodup, List.nodup_singleton _, ?_⟩
    rintro a member _ single rfl
    exact fresh (List.mem_singleton.mp single ▸ member)
  · refine .trans ?_ (formed.covers.append_right [k'])
    rw [whole]
    simp only [List.flatten_append, List.flatten_cons, List.append_assoc]
    refine .append_left _ (.append_left _ (.append_left _ ?_))
    exact List.perm_append_comm
  · have nonempty := formed.nonempty
    rw [whole] at nonempty
    simp_all
  · intro other inside' pre a post cut
    rcases List.mem_append.mp inside' with left | right
    · exact elsewhere other (.inl left) pre a post cut
    · rcases List.mem_cons.mp right with rfl | right
      · exact formed.linked_snoc member ended points ends same cut
      · exact elsewhere other (.inr right) pre a post cut
  · rw [whole]
    cases before <;> simp

/-! ### What the chains say of the links -/

/-- Only the last key of a chain points nowhere. -/
theorem last_of_end (formed : Chains next keys chains) {chain : List κ} (member : chain ∈ chains)
    (inside : k ∈ chain) (ended : next k = none) : chain.getLast? = some k := by
  obtain ⟨before, after, rfl⟩ := List.append_of_mem inside
  have last := formed.linked _ member before k after rfl
  rw [ended] at last
  obtain rfl := List.head?_eq_none_iff.mp last.symm
  simp

/-- A link leads to the next key of the chain. -/
theorem step (formed : Chains next keys chains) {chain before after : List κ} (member : chain ∈ chains)
    (cut : chain = before ++ a :: after) (points : next a = some b) : ∃ rest, after = b :: rest := by
  have last := formed.linked chain member before a after cut
  rw [points] at last
  exact List.head?_eq_some_iff.mp last.symm

/-- What no link changes is the same along a chain. -/
theorem constant {V : Type} {f : κ → V} (formed : Chains next keys chains)
    (kept : ∀ a ∈ keys, ∀ b, next a = some b → f a = f b) {chain : List κ} (member : chain ∈ chains)
    (inside : a ∈ chain) (inside' : b ∈ chain) : f a = f b := by
  have links : ∀ before after, chain = before ++ after → ∀ k ∈ after, some (f k) = after.head?.map f := by
    intro before after cut
    induction after generalizing before with
    | nil => nofun
    | cons head tail ih =>
      intro k there
      rcases List.mem_cons.mp there with rfl | later
      · rfl
      · have known : head ∈ keys := formed.mem_keys.mpr ⟨chain, member, cut ▸ by simp⟩
        have linked := formed.linked chain member before head tail cut
        rw [ih (before ++ [head]) (by simpa using cut) k later]
        cases tail with
        | nil => contradiction
        | cons second _ => exact congrArg some (kept head known second linked).symm
  exact Option.some.inj ((links [] chain rfl a inside).trans (links [] chain rfl b inside').symm)

/-- Chains that share a key are one. -/
theorem chain_unique (formed : Chains next keys chains) {first second : List κ} (member : first ∈ chains)
    (member' : second ∈ chains) (inside : k ∈ first) (inside' : k ∈ second) : first = second := by
  have apart := (List.nodup_flatten.mp (formed.covers.nodup_iff.mpr formed.nodup)).2
  have symmetric : Std.Symm (@List.Disjoint κ) :=
    ⟨fun _ _ apart _ inside inside' => apart inside' inside⟩
  by_contra different
  exact apart.forall member member' different inside inside'

/-- No key is pointed to twice. -/
theorem injective (formed : Chains next keys chains) (known : a ∈ keys) (known' : b ∈ keys)
    (points : next a = some c) (points' : next b = some c) : a = b := by
  obtain ⟨chain, member, inside⟩ := formed.mem_keys.mp known
  obtain ⟨chain', member', inside'⟩ := formed.mem_keys.mp known'
  obtain ⟨before, after, cut⟩ := List.append_of_mem inside
  obtain ⟨before', after', cut'⟩ := List.append_of_mem inside'
  obtain ⟨rest, rfl⟩ := formed.step member cut points
  obtain ⟨rest', rfl⟩ := formed.step member' cut' points'
  have shared : c ∈ chain := cut ▸ by simp
  have shared' : c ∈ chain' := cut' ▸ by simp
  obtain rfl : chain = chain' := formed.chain_unique member member' shared shared'
  have nodup := formed.chain_nodup member
  -- the key pointed to stands at one place, and the key before it too
  have first : chain = (before ++ [a]) ++ c :: rest := by simpa using cut
  have second : chain = (before' ++ [b]) ++ c :: rest' := by simpa using cut'
  rw [first] at nodup
  obtain ⟨_, right, apart⟩ := List.nodup_append.mp nodup
  have absent : c ∉ before ++ [a] := fun inside => apart c inside c List.mem_cons_self rfl
  have absent' : c ∉ rest := (List.nodup_cons.mp right).1
  have cuts : (before' ++ [b]) ++ c :: rest' = (before ++ [a]) ++ c :: rest := second.symm.trans first
  obtain ⟨same, _⟩ := (List.append_cons_inj_of_notMem absent absent').mp cuts.symm
  obtain ⟨_, single⟩ := List.append_inj' same rfl
  exact List.head_eq_of_cons_eq single

/-- Links lead onwards in a chain. -/
theorem onwards (formed : Chains next keys chains) {chain before after : List κ} (member : chain ∈ chains)
    (cut : chain = before ++ a :: after) (leads : Relation.TransGen (fun a b => next a = some b) a b) :
    ∃ between rest, after = between ++ b :: rest := by
  induction leads with
  | single points =>
    obtain ⟨rest, rfl⟩ := formed.step member cut points
    exact ⟨[], rest, rfl⟩
  | @tail b c _ points ih =>
    obtain ⟨between, rest, rfl⟩ := ih
    have cut' : chain = (before ++ a :: between) ++ b :: rest := by simpa using cut
    obtain ⟨rest, rfl⟩ := formed.step member cut' points
    exact ⟨between ++ [b], rest, by simp⟩

/-- No key leads back to itself. -/
theorem acyclic (formed : Chains next keys chains) (known : a ∈ keys) :
    ¬ Relation.TransGen (fun a b => next a = some b) a a := by
  intro leads
  obtain ⟨chain, member, inside⟩ := formed.mem_keys.mp known
  obtain ⟨before, after, cut⟩ := List.append_of_mem inside
  obtain ⟨between, rest, rfl⟩ := formed.onwards member cut leads
  have nodup := formed.chain_nodup member
  rw [cut] at nodup
  exact (List.nodup_cons.mp (List.nodup_append.mp nodup).2.1).1 (by simp)

end Chains
