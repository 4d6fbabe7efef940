import Stellance.Escrow.Independence

/-! Paying an escrow out in instalments. Calls of release_milestone add up: only their
sum counts, they close the entry exactly at its last unit, and then they have done what
one call of release does. -/

namespace Stellance.Escrow
variable {Address Symbol τ : Type} [DecidableEq Address] [DecidableEq Symbol]

/-- One call of release_milestone. -/
structure Instalment (Address : Type) where
  auths : Finset Address
  caller : Address
  amount : I128

namespace Instalment

def call (id : Symbol) (i : Instalment Address) : Call Address Symbol :=
  .releaseMilestone id i.caller i.amount

/-- A positive amount, asked for by the client or the admin. -/
structure Allowed (entry : EscrowEntry Address) (i : Instalment Address) : Prop where
  signed : i.caller ∈ i.auths
  party : i.caller = entry.client ∨ i.caller = entry.admin
  positive : 0 < i.amount.val

def outcome (host : Host Address τ) (id : Symbol) (ledger : Ledger Address Symbol τ)
    (i : Instalment Address) : Outcome :=
  (invoke host i.auths (i.call id) ledger.state).1.outcome

end Instalment

/-- A list of instalments, paid in order. -/
def Ledger.pay (host : Host Address τ) (id : Symbol) (ledger : Ledger Address Symbol τ)
    (is : List (Instalment Address)) : Ledger Address Symbol τ :=
  ledger.actAll host (is.map fun i => .call i.auths (i.call id))

def amounts (is : List (Instalment Address)) : Int :=
  (is.map fun i => i.amount.val).sum

section Amounts
variable {is rest : List (Instalment Address)} {i : Instalment Address}
omit [DecidableEq Address]

theorem amounts_append : amounts (is ++ rest) = amounts is + amounts rest := by
  simp only [amounts, List.map_append, List.sum_append]

theorem amounts_cons : amounts (i :: rest) = i.amount.val + amounts rest := by
  simp only [amounts, List.map_cons, List.sum_cons]

theorem amounts_nonneg (positive : ∀ i ∈ is, 0 < i.amount.val) : 0 ≤ amounts is := by
  refine List.sum_nonneg fun value member => ?_
  obtain ⟨i, inside, rfl⟩ := List.mem_map.mp member
  exact le_of_lt (positive i inside)

/-- A list that asks for too much has a first instalment that does. -/
theorem first_beyond {bound : Int} (nonneg : 0 ≤ bound) (beyond : bound < amounts is) :
    ∃ before i after, is = before ++ i :: after ∧ amounts before ≤ bound ∧
      bound < amounts before + i.amount.val := by
  induction is using List.reverseRecOn with
  | nil => exact absurd beyond (not_lt.mpr nonneg)
  | append_singleton is i ih =>
    rcases lt_or_ge bound (amounts is) with already | within
    · obtain ⟨before, j, after, rfl, low, high⟩ := ih already
      exact ⟨before, j, after ++ [i], by simp, low, high⟩
    · rw [amounts_append, amounts_cons] at beyond
      exact ⟨is, i, [], rfl, within, lt_of_lt_of_eq beyond (by simp [amounts])⟩

end Amounts

variable {host : Host Address τ} {ledger : Ledger Address Symbol τ} {id : Symbol}
  {entry : EscrowEntry Address} {is before after : List (Instalment Address)} {i : Instalment Address}
  {trace : List (Ledger Address Symbol τ × Action Address Symbol τ)}

theorem pay_snoc (i : Instalment Address) :
    ledger.pay host id (is ++ [i]) = (ledger.pay host id is).act host (.call i.auths (i.call id)) := by
  simp only [Ledger.pay, Ledger.actAll, List.map_append, List.foldl_append]
  rfl

theorem pay_sound {T : Address} (laws : TokenLaws host T) (sound : Sound host T ledger) :
    Sound host T (ledger.pay host id is) := by
  induction is using List.reverseRecOn with
  | nil => exact sound
  | append_singleton is i ih =>
    rw [pay_snoc]
    exact call_sound laws ih i.auths rfl

theorem shift_add (sender recipient owner : Address) (first second : Int) :
    shift sender recipient (first + second) owner =
      shift sender recipient first owner + shift sender recipient second owner := by
  unfold shift
  split <;> split <;> omega

/-- The entry after a part was released. -/
def EscrowEntry.afterReleasing (entry : EscrowEntry Address) (released : I128) : EscrowEntry Address :=
  { entry with
    releasedAmount := released
    status := if entry.totalAmount.val ≤ released.val then .released else entry.status }

/-- What a call does where the table has a move for it. -/
theorem call_moves (exact' : ExactToken host entry.token) (sound : Sound host entry.token ledger)
    {call : Call Address Symbol} {auths : Finset Address} {next : EscrowEntry Address}
    {payouts : List (Payout Address)} {event : Event Address Symbol}
    (found : ledger.entry call.contractId = some entry) (authorised : call.caller ∈ auths)
    (moves : Moves call entry payouts next event) :
    (invoke host auths call ledger.state).1.outcome = .ok ∧
      (ledger.act host (.call auths call)).entry call.contractId = some next ∧
      ∀ T owner, host.balance (ledger.act host (.call auths call)).state.tokens T owner =
        host.balance ledger.state.tokens T owner + deltas host.currentContractAddress T owner
          (payouts.map fun payout => .transfer entry.token payout.1 payout.2) := by
  have known : call.isFund = false := by cases moves <;> rfl
  obtain ⟨made, does, moved⟩ := call_does (backed_of_found found exact' sound) auths known
  rw [found] at does
  obtain ⟨outcome, stored, rfl⟩ := does.unique (.moved authorised moves)
  exact ⟨outcome, stored, moved⟩

/-- A call the table refuses changes nothing. -/
theorem call_refused {call : Call Address Symbol} {auths : Finset Address} {error : EscrowError}
    (backed : ledger.Backed host call.contractId) (known : call.isFund = false) (authorised : call.caller ∈ auths)
    (refused : Refused call (ledger.entry call.contractId) error) :
    (invoke host auths call ledger.state).1.outcome = .stopped (.err error) ∧
      (ledger.act host (.call auths call)).state = ledger.state := by
  obtain ⟨made, does, _⟩ := call_does backed auths known
  obtain ⟨outcome, _⟩ := does.unique (.refused authorised refused)
  refine ⟨outcome, ?_⟩
  simp only [invoke] at outcome
  simp only [Ledger.act, invoke]
  split at outcome
  · contradiction
  · rfl

omit [DecidableEq Address] in
/-- What is left of a well-formed entry, as a checked integer. -/
theorem EscrowEntry.WellFormed.remaining (formed : entry.WellFormed) :
    ∃ remaining : I128, remaining.val = entry.totalAmount.val - entry.releasedAmount.val := by
  have := formed.bounded
  have := formed.nonneg
  have := entry.totalAmount.le_hi
  exact ⟨⟨entry.totalAmount.val - entry.releasedAmount.val, by omega, by omega⟩, rfl⟩

theorem instalment_paid (found : ledger.entry id = some entry) (exact' : ExactToken host entry.token)
    (sound : Sound host entry.token ledger) (funded : entry.status = .funded) (allowed : i.Allowed entry)
    (covered : i.amount.val ≤ entry.totalAmount.val - entry.releasedAmount.val) :
    i.outcome host id ledger = .ok ∧ ∃ released : I128,
      released.val = entry.releasedAmount.val + i.amount.val ∧
      (ledger.act host (.call i.auths (i.call id))).entry id = some (entry.afterReleasing released) ∧
      ∀ T owner, host.balance (ledger.act host (.call i.auths (i.call id))).state.tokens T owner =
        host.balance ledger.state.tokens T owner + if entry.token = T then
          shift host.currentContractAddress entry.freelancer i.amount.val owner else 0 := by
  have formed := sound.formed id entry found
  obtain ⟨remaining, left⟩ := formed.remaining
  have bound := entry.totalAmount.le_hi
  have positive := allowed.positive
  have nonneg := formed.nonneg
  let released : I128 := ⟨entry.releasedAmount.val + i.amount.val, by omega, by omega⟩
  have found : ledger.entry (i.call id).contractId = some entry := found
  obtain ⟨outcome, stored, moved⟩ := call_moves exact' sound found allowed.signed
    (.releaseMilestone funded allowed.party remaining left positive (left ▸ covered) released rfl)
  refine ⟨outcome, released, rfl, stored, fun T owner => ?_⟩
  rw [moved T owner]
  simp [deltas, TokenCall.delta]

/-- Instalments that ask for no more than what is left. -/
theorem instalments_paid (exact' : ExactToken host entry.token) (sound : Sound host entry.token ledger)
    (found : ledger.entry id = some entry) (funded : entry.status = .funded)
    (allowed : ∀ i ∈ is, i.Allowed entry)
    (covered : amounts is ≤ entry.totalAmount.val - entry.releasedAmount.val) :
    ∃ released : I128, released.val = entry.releasedAmount.val + amounts is ∧
      (ledger.pay host id is).entry id = some (entry.afterReleasing released) ∧
      ∀ T owner, host.balance (ledger.pay host id is).state.tokens T owner =
        host.balance ledger.state.tokens T owner + if entry.token = T then
          shift host.currentContractAddress entry.freelancer (amounts is) owner else 0 := by
  have formed := sound.formed id entry found
  have unspent := formed.unspent (by rw [funded]; rfl)
  induction is using List.reverseRecOn with
  | nil =>
    refine ⟨entry.releasedAmount, (Int.add_zero _).symm, ?_, ?_⟩
    · rw [EscrowEntry.afterReleasing, if_neg (by omega)]
      exact found
    · intro T owner
      simp [Ledger.pay, Ledger.actAll, amounts, shift]
  | append_singleton is i ih =>
    have last := allowed i (List.mem_append_right _ List.mem_cons_self)
    have positive := last.positive
    rw [amounts_append, amounts_cons, show amounts ([] : List (Instalment Address)) = 0 from rfl,
      Int.add_zero] at covered ⊢
    obtain ⟨earlier, sum, stored, moved⟩ :=
      ih (fun i member => allowed i (List.mem_append_left _ member)) (by omega)
    rw [EscrowEntry.afterReleasing, if_neg (by omega)] at stored
    obtain ⟨_, released, more, stored', moved'⟩ := instalment_paid stored exact'
      (pay_sound exact'.laws sound) funded ⟨last.signed, last.party, positive⟩ (by dsimp only; omega)
    refine ⟨released, by dsimp only at more; omega, ?_, ?_⟩
    · rw [pay_snoc]
      exact stored'
    · intro T owner
      rw [pay_snoc, moved' T owner, moved T owner, shift_add]
      dsimp only
      split <;> omega

/-- An instalment goes through while the sum stays within what is left. -/
theorem instalment_ok (exact' : ExactToken host entry.token) (sound : Sound host entry.token ledger)
    (found : ledger.entry id = some entry) (funded : entry.status = .funded)
    (allowed : ∀ i ∈ is, i.Allowed entry)
    (covered : amounts is ≤ entry.totalAmount.val - entry.releasedAmount.val)
    (cut : is = before ++ i :: after) : i.outcome host id (ledger.pay host id before) = .ok := by
  subst cut
  have here := allowed i (List.mem_append_right _ List.mem_cons_self)
  have later : 0 ≤ amounts after := amounts_nonneg fun j member =>
    (allowed j (List.mem_append_right _ (List.mem_cons_of_mem _ member))).positive
  have positive := here.positive
  rw [amounts_append, amounts_cons] at covered
  have earlier : ∀ j ∈ before, j.Allowed entry := fun j member => allowed j (List.mem_append_left _ member)
  obtain ⟨released, sum, stored, _⟩ :=
    instalments_paid exact' sound found funded earlier (by omega)
  rw [EscrowEntry.afterReleasing, if_neg (by omega)] at stored
  refine (instalment_paid stored exact' (pay_sound exact'.laws sound) funded
    ⟨here.signed, here.party, positive⟩ ?_).1
  dsimp only
  omega

/-- The first instalment beyond what is left is refused. -/
theorem instalment_beyond (exact' : ExactToken host entry.token) (sound : Sound host entry.token ledger)
    (found : ledger.entry id = some entry) (funded : entry.status = .funded)
    (allowed : ∀ i ∈ before, i.Allowed entry) (here : i.Allowed entry)
    (within : amounts before ≤ entry.totalAmount.val - entry.releasedAmount.val)
    (beyond : entry.totalAmount.val - entry.releasedAmount.val < amounts before + i.amount.val) :
    i.outcome host id (ledger.pay host id before) = .stopped (.err .invalidState) ∧
      (ledger.pay host id (before ++ [i])).state = (ledger.pay host id before).state := by
  obtain ⟨released, sum, stored, _⟩ := instalments_paid exact' sound found funded allowed within
  have refused : Refused (i.call id) ((ledger.pay host id before).entry (i.call id).contractId)
      .invalidState := by
    change Refused (i.call id) ((ledger.pay host id before).entry id) .invalidState
    rw [stored, EscrowEntry.afterReleasing]
    split
    · exact .wrongStatus rfl (by simp [Instalment.call, Call.needs])
    · exact .beyondRemaining funded here.party here.positive (by dsimp only; omega)
  have backed : (ledger.pay host id before).Backed host id :=
    backed_of_found stored exact' (pay_sound exact'.laws sound)
  rw [pay_snoc]
  exact call_refused backed rfl here.signed refused

/-- A full release, whoever of the two asks for it. -/
theorem release_paid (exact' : ExactToken host entry.token) (sound : Sound host entry.token ledger)
    (found : ledger.entry id = some entry) (funded : entry.status = .funded) {auths : Finset Address}
    {caller : Address} (signed : caller ∈ auths) (party : caller = entry.client ∨ caller = entry.admin) :
    (invoke host auths (.release id caller) ledger.state).1.outcome = .ok ∧
      (ledger.act host (.call auths (.release id caller))).entry id =
        some { entry with releasedAmount := entry.totalAmount, status := .released } ∧
      ∀ T owner, host.balance (ledger.act host (.call auths (.release id caller))).state.tokens T owner =
        host.balance ledger.state.tokens T owner + if entry.token = T then
          shift host.currentContractAddress entry.freelancer
            (entry.totalAmount.val - entry.releasedAmount.val) owner else 0 := by
  have formed := sound.formed id entry found
  have unspent := formed.unspent (by rw [funded]; rfl)
  obtain ⟨remaining, left⟩ := formed.remaining
  have found : ledger.entry (Call.release id caller).contractId = some entry := found
  obtain ⟨outcome, stored, moved⟩ :=
    call_moves exact' sound found signed (.release funded party remaining left)
  refine ⟨outcome, stored, fun T owner => ?_⟩
  rw [moved T owner, ← left, positivePay, if_pos (by omega)]
  simp [deltas, TokenCall.delta]

/-- Instalments of what is left, to the last unit: all go through, and only the last of them
closes the entry. -/
theorem instalments_close (run : RunTo host trace ledger) (exact' : ExactToken host entry.token)
    (fair : ∀ point ∈ trace, Fair host entry.token point.1 point.2) (found : ledger.entry id = some entry)
    (funded : entry.status = .funded) (allowed : ∀ i ∈ is, i.Allowed entry)
    (whole : amounts is = entry.totalAmount.val - entry.releasedAmount.val) :
    (∀ before i after, is = before ++ i :: after →
      i.outcome host id (ledger.pay host id before) = .ok ∧ ∃ released : I128,
        released.val = entry.releasedAmount.val + amounts before ∧
        (ledger.pay host id before).entry id = some { entry with releasedAmount := released }) ∧
    (ledger.pay host id is).entry id =
      some { entry with releasedAmount := entry.totalAmount, status := .released } := by
  have sound := run_sound exact'.laws run fair
  constructor
  · rintro before i after rfl
    refine ⟨instalment_ok exact' sound found funded allowed (le_of_eq whole) rfl, ?_⟩
    have here := (allowed i (List.mem_append_right _ List.mem_cons_self)).positive
    have later : 0 ≤ amounts after := amounts_nonneg fun j member =>
      (allowed j (List.mem_append_right _ (List.mem_cons_of_mem _ member))).positive
    have earlier : ∀ j ∈ before, j.Allowed entry := fun j member => allowed j (List.mem_append_left _ member)
    rw [amounts_append, amounts_cons] at whole
    obtain ⟨released, sum, stored, _⟩ := instalments_paid exact' sound found funded earlier (by omega)
    rw [EscrowEntry.afterReleasing, if_neg (by omega)] at stored
    exact ⟨released, sum, stored⟩
  · obtain ⟨released, sum, stored, _⟩ :=
      instalments_paid exact' sound found funded allowed (le_of_eq whole)
    have full : released = entry.totalAmount := CheckedInt.ext_val (by omega)
    rw [EscrowEntry.afterReleasing, full, if_pos (le_refl _)] at stored
    exact stored

/-- Instalments of a funded entry. Summing to what is left they equal one full release;
below that the entry stays funded and their order does not matter; above it the first
that goes too far is refused and changes nothing. -/
theorem instalments_add_up (run : RunTo host trace ledger) (exact' : ExactToken host entry.token)
    (fair : ∀ point ∈ trace, Fair host entry.token point.1 point.2)
    (found : getEscrow id ledger.state = some entry) (funded : entry.status = .funded)
    (is : List (Instalment Address)) (allowed : ∀ i ∈ is, i.Allowed entry) :
    (amounts is = entry.totalAmount.val - entry.releasedAmount.val →
      (∀ before i after, is = before ++ i :: after →
        i.outcome host id (ledger.pay host id before) = .ok) ∧
      ∀ auths caller, caller ∈ auths → (caller = entry.client ∨ caller = entry.admin) →
        (invoke host auths (.release id caller) ledger.state).1.outcome = .ok ∧
        getEscrow id (ledger.pay host id is).state =
          getEscrow id (ledger.act host (.call auths (.release id caller))).state ∧
        ∀ T owner, host.balance (ledger.pay host id is).state.tokens T owner =
          host.balance (ledger.act host (.call auths (.release id caller))).state.tokens T owner) ∧
    (amounts is < entry.totalAmount.val - entry.releasedAmount.val →
      (∀ before i after, is = before ++ i :: after →
        i.outcome host id (ledger.pay host id before) = .ok) ∧
      (∃ released : I128, released.val = entry.releasedAmount.val + amounts is ∧
        getEscrow id (ledger.pay host id is).state = some { entry with releasedAmount := released }) ∧
      ∀ others, others.Perm is →
        getEscrow id (ledger.pay host id others).state = getEscrow id (ledger.pay host id is).state ∧
        ∀ T owner, host.balance (ledger.pay host id others).state.tokens T owner =
          host.balance (ledger.pay host id is).state.tokens T owner) ∧
    (entry.totalAmount.val - entry.releasedAmount.val < amounts is →
      ∃ before i after, is = before ++ i :: after ∧
        amounts before ≤ entry.totalAmount.val - entry.releasedAmount.val ∧
        entry.totalAmount.val - entry.releasedAmount.val < amounts before + i.amount.val ∧
        (∀ earlier j later, before = earlier ++ j :: later →
          j.outcome host id (ledger.pay host id earlier) = .ok) ∧
        i.outcome host id (ledger.pay host id before) = .stopped (.err .invalidState) ∧
        (ledger.pay host id (before ++ [i])).state = (ledger.pay host id before).state) := by
  have sound := run_sound exact'.laws run fair
  have bounded := (sound.formed id entry found).bounded
  refine ⟨fun all => ⟨?_, ?_⟩, fun short => ⟨?_, ?_, ?_⟩, fun beyond => ?_⟩
  · exact fun before i after cut =>
      instalment_ok exact' sound found funded allowed (le_of_eq all) cut
  · intro auths caller signed party
    obtain ⟨outcome, stored, moved⟩ := release_paid exact' sound found funded signed party
    obtain ⟨released, sum, stored', moved'⟩ :=
      instalments_paid exact' sound found funded allowed (le_of_eq all)
    have full : released = entry.totalAmount := CheckedInt.ext_val (by omega)
    refine ⟨outcome, ?_, fun T owner => ?_⟩
    · rw [EscrowEntry.afterReleasing, full, if_pos (le_refl _)] at stored'
      exact stored'.trans stored.symm
    · rw [moved, moved', all]
  · exact fun before i after cut =>
      instalment_ok exact' sound found funded allowed (le_of_lt short) cut
  · obtain ⟨released, sum, stored, _⟩ :=
      instalments_paid exact' sound found funded allowed (le_of_lt short)
    rw [EscrowEntry.afterReleasing, if_neg (by omega)] at stored
    exact ⟨released, sum, stored⟩
  · intro others same
    have total : amounts others = amounts is := (same.map _).sum_eq
    obtain ⟨released, sum, stored, moved⟩ :=
      instalments_paid exact' sound found funded allowed (le_of_lt short)
    have allowed' : ∀ i ∈ others, i.Allowed entry := fun i member => allowed i (same.subset member)
    obtain ⟨released', sum', stored', moved'⟩ :=
      instalments_paid exact' sound found funded allowed' (by omega)
    have equal : released' = released := CheckedInt.ext_val (by omega)
    refine ⟨stored'.trans (equal ▸ stored.symm), fun T owner => ?_⟩
    rw [moved, moved', total]
  · obtain ⟨before, i, after, rfl, within, too_far⟩ := first_beyond (by omega) beyond
    have earlier : ∀ j ∈ before, j.Allowed entry :=
      fun j member => allowed j (List.mem_append_left _ member)
    have here := allowed i (List.mem_append_right _ List.mem_cons_self)
    refine ⟨before, i, after, rfl, within, too_far, ?_, ?_⟩
    · exact fun first j later cut => instalment_ok exact' sound found funded earlier within cut
    · exact instalment_beyond exact' sound found funded earlier here within too_far

/-- 300 from the admin and 700 from the client close the deposit on the bank. -/
def Bank.instalments : List (Instalment Nat) := [⟨{3}, 3, .fromU32 300⟩, ⟨{1}, 1, .fromU32 700⟩]

theorem instalments_add_up_bank :
    getEscrow 7 ((Bank.ledger [Bank.funding]).pay (Bank.host 0) 7 Bank.instalments).state =
      getEscrow 7 ((Bank.ledger [Bank.funding]).act (Bank.host 0) (.call {1} (.release 7 1))).state := by
  obtain ⟨trace, run, same⟩ := Bank.ledger_run [Bank.funding]
  have fair : ∀ point ∈ trace, Fair (Bank.host 0) 9 point.1 point.2 := by
    refine bank_fair same ?_
    intro action member
    obtain rfl := List.mem_singleton.mp member
    exact ⟨_, _, rfl, by decide⟩
  have found : getEscrow 7 (Bank.ledger [Bank.funding]).state =
      some (.opened 1 2 3 (.fromU32 1000) 9) := by decide
  have allowed : ∀ i ∈ Bank.instalments, i.Allowed (.opened 1 2 3 (.fromU32 1000) 9) := by
    intro i member
    simp only [Bank.instalments, List.mem_cons, List.not_mem_nil, or_false] at member
    rcases member with rfl | rfl
    · exact ⟨by decide, by decide, by decide⟩
    · exact ⟨by decide, by decide, by decide⟩
  have whole := (instalments_add_up run bank_exact fair found rfl Bank.instalments allowed).1 (by decide)
  exact (whole.2 {1} 1 (by decide) (by decide)).2.1

end Stellance.Escrow
