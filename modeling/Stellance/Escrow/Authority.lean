import Stellance.Escrow.Conservation

/-! Who can move escrowed funds. The freelancer is paid by the client's or the
admin's hand, the client by the freelancer's or the admin's, a disputed entry by the
admin's alone, and nobody but the two parties is ever paid. -/
namespace Stellance.Escrow
variable {Address Symbol τ : Type}
  {host : Host Address τ} {before after ledger later : Ledger Address Symbol τ}
  {action : Action Address Symbol τ} {id : Symbol} {entry next : EscrowEntry Address}
  {trace : List (Ledger Address Symbol τ × Action Address Symbol τ)}

/-- A party authorises an action. -/
def Action.AuthorisedBy (party : Address) : Action Address Symbol τ → Prop
  | .call auths _ => party ∈ auths
  | .outside _ => False

/-- A party authorises a resolution of an id. -/
def Action.ResolvedBy (id : Symbol) (admin : Address) : Action Address Symbol τ → Prop
  | .call auths (.resolveDispute key ..) => key = id ∧ admin ∈ auths
  | _ => False

structure EscrowEntry.Distinct (entry : EscrowEntry Address) : Prop where
  parties : entry.client ≠ entry.freelancer
  client : entry.client ≠ entry.admin
  freelancer : entry.freelancer ≠ entry.admin

theorem EscrowEntry.SameTerms.distinct (terms : entry.SameTerms next) (distinct : entry.Distinct) :
    next.Distinct := by
  obtain ⟨client, freelancer, admin, _, _⟩ := terms
  constructor
  · rw [client, freelancer]
    exact distinct.parties
  · rw [client, admin]
    exact distinct.client
  · rw [freelancer, admin]
    exact distinct.freelancer

namespace Moves
variable {call : Call Address Symbol} {payouts : List (Payout Address)} {event : Event Address Symbol}

/-- Only the admin moves a disputed entry, and only by resolving it. -/
theorem of_disputed (moves : Moves call entry payouts next event)
    (disputed : entry.status = .disputed) :
    ∃ id decision bps, call = .resolveDispute id entry.admin decision bps := by
  cases moves with
  | resolve _ allowed =>
    subst allowed
    exact ⟨_, _, _, rfl⟩
  | releaseMilestone funded | release funded | refund funded | dispute funded =>
    rw [disputed] at funded
    contradiction

variable [DecidableEq Address]

/-- A caller who is neither client nor admin pays the freelancer nothing. -/
theorem nothing_to_freelancer (moves : Moves call entry payouts next event)
    (distinct : entry.Distinct) (client : call.caller ≠ entry.client)
    (admin : call.caller ≠ entry.admin) : payoutSumTo entry.freelancer payouts = 0 := by
  cases moves with
  | releaseMilestone funded allowed => exact (allowed.elim client admin).elim
  | release funded allowed => exact (allowed.elim client admin).elim
  | refund => exact payoutSumTo_positivePay_other distinct.parties
  | dispute => rfl
  | resolve disputed allowed => exact (admin allowed).elim

/-- A caller who is neither freelancer nor admin pays the client nothing. -/
theorem nothing_to_client (moves : Moves call entry payouts next event)
    (distinct : entry.Distinct) (freelancer : call.caller ≠ entry.freelancer)
    (admin : call.caller ≠ entry.admin) : payoutSumTo entry.client payouts = 0 := by
  cases moves with
  | releaseMilestone =>
    simp [payoutSumTo, Ne.symm distinct.parties]
  | release => exact payoutSumTo_positivePay_other (Ne.symm distinct.parties)
  | refund funded allowed => exact (allowed.elim freelancer admin).elim
  | dispute => rfl
  | resolve disputed allowed => exact (admin allowed).elim

end Moves

variable [DecidableEq Address] [DecidableEq Symbol]

/-- The entry of an id is still there with its terms, and a party got nothing since. -/
structure Unpaid (id : Symbol) (entry : EscrowEntry Address) (party : Address) (paid : Int)
    (ledger : Ledger Address Symbol τ) : Prop where
  stored : ∃ next, ledger.entry id = some next ∧ entry.SameTerms next
  same : paidTo ledger.receipts id party = paid

/-- A party is paid nothing while none of the moves still possible pays it. -/
theorem run_unpaid {party : Address} (Barred : Action Address Symbol τ → Prop)
    (nothing : ∀ {auths call middle payouts next event}, entry.SameTerms middle →
      ¬ Barred (.call auths call) → call.caller ∈ auths → Moves call middle payouts next event →
      payoutSumTo party payouts = 0)
    (run : Runs.Run (Step host) ledger trace later) (found : ledger.entry id = some entry)
    (meets : ∀ point ∈ trace, ¬ Barred point.2) :
    paidTo later.receipts id party = paidTo ledger.receipts id party := by
  have keeps {before action after}
      (unpaid : Unpaid id entry party (paidTo ledger.receipts id party) before)
      (allowed : ¬ Barred action) (stepped : Step host before action after) :
      Unpaid id entry party (paidTo ledger.receipts id party) after := by
    obtain ⟨⟨middle, stored, terms⟩, same⟩ := unpaid
    obtain ⟨next, stored', kept, _⟩ := step_status stepped stored
    refine ⟨⟨next, stored', terms.trans kept⟩, ?_⟩
    rw [← same]
    cases didTo_of_step id stepped with
    | nothing _ quiet => rw [paidTo, paidTo, quiet]
    | opened authorised positive absent _ pulled => exact paidTo_pulled pulled
    | moved own authorised earlier moves carried _ paid =>
      obtain rfl := Option.some.inj (stored.symm.trans earlier)
      rw [paidTo_paid paid, nothing terms allowed authorised moves, Int.add_zero]
  have final := run.invariant_of (Unpaid id entry party (paidTo ledger.receipts id party))
    (fun _ action => ¬ Barred action) keeps meets ⟨⟨entry, found, .refl entry⟩, rfl⟩
  exact final.same

/-- An id with this very entry and these token calls. -/
structure Still (id : Symbol) (entry : EscrowEntry Address) (calls : List (TokenCall Address))
    (ledger : Ledger Address Symbol τ) : Prop where
  stored : ledger.entry id = some entry
  same : tokenCalls ledger.receipts id = calls

/-- A disputed entry stands still until the admin resolves it. -/
theorem run_disputed (run : Runs.Run (Step host) ledger trace later)
    (found : ledger.entry id = some entry) (disputed : entry.status = .disputed)
    (meets : ∀ point ∈ trace, ¬ point.2.ResolvedBy id entry.admin) :
    Still id entry (tokenCalls ledger.receipts id) later := by
  have keeps {before action after} (holds : Still id entry (tokenCalls ledger.receipts id) before)
      (allowed : ¬ action.ResolvedBy id entry.admin) (stepped : Step host before action after) :
      Still id entry (tokenCalls ledger.receipts id) after := by
    obtain ⟨stored, same⟩ := holds
    cases didTo_of_step id stepped with
    | nothing kept quiet => exact ⟨kept.trans stored, quiet.trans same⟩
    | opened authorised positive absent =>
      rw [absent] at stored
      contradiction
    | moved own authorised earlier moves =>
      obtain rfl := Option.some.inj (stored.symm.trans earlier)
      obtain ⟨key, decision, bps, rfl⟩ := moves.of_disputed disputed
      exact absurd ⟨own, authorised⟩ allowed
  exact run.invariant_of (Still id entry (tokenCalls ledger.receipts id))
    (fun _ action => ¬ Action.ResolvedBy id entry.admin action) keeps meets ⟨found, rfl⟩

/-- The token calls an entry has seen: the deposit coming in, and payments to its parties. -/
def EscrowEntry.Admits (entry : EscrowEntry Address) (call : TokenCall Address) : Prop :=
  call = .transferFrom entry.token entry.client entry.totalAmount ∨
    ∃ party amount, call = .transfer entry.token party amount ∧
      (party = entry.client ∨ party = entry.freelancer)

omit [DecidableEq Address] in
theorem EscrowEntry.SameTerms.admits {call : TokenCall Address} (terms : entry.SameTerms next)
    (admitted : entry.Admits call) : next.Admits call := by
  obtain ⟨client, freelancer, _, token, totalAmount⟩ := terms
  unfold EscrowEntry.Admits
  rw [client, freelancer, token, totalAmount]
  exact admitted

/-- Token calls of an id are those its entry admits; without an entry there are none. -/
def Ledger.Admitted (id : Symbol) (ledger : Ledger Address Symbol τ) : Prop :=
  match ledger.entry id with
  | none => tokenCalls ledger.receipts id = []
  | some entry => ∀ call ∈ tokenCalls ledger.receipts id, entry.Admits call

theorem step_admitted (admitted : before.Admitted id) (stepped : Step host before action after) :
    after.Admitted id := by
  unfold Ledger.Admitted at admitted ⊢
  cases didTo_of_step id stepped with
  | nothing same quiet =>
    rw [same, quiet]
    exact admitted
  | opened authorised positive absent stored pulled =>
    rw [absent] at admitted
    rw [stored, pulled, admitted]
    intro call member
    obtain rfl := List.mem_singleton.mp member
    exact .inl rfl
  | moved own authorised found moves carried stored paid =>
    rw [found] at admitted
    rw [stored, paid]
    intro call member
    apply moves.sameTerms.admits
    rcases List.mem_append.mp member with earlier | payout
    · exact admitted call earlier
    · obtain ⟨payout, inside, rfl⟩ := List.mem_map.mp payout
      exact .inr ⟨_, _, rfl, (moves.payees inside).1⟩

theorem reachable_admitted (reached : Reachable host ledger) (id : Symbol) : ledger.Admitted id := by
  obtain ⟨_, ttl, tokens, run⟩ := reached
  exact run.invariant step_admitted rfl

/-- Nobody moves escrowed funds alone. -/
theorem nobody_alone (reached : Reachable host ledger) (found : ledger.entry id = some entry)
    (distinct : entry.Distinct) (run : Runs.Run (Step host) ledger trace later) :
    ((∀ point ∈ trace, ¬ (point.2.AuthorisedBy entry.client ∨ point.2.AuthorisedBy entry.admin)) →
      paidTo later.receipts id entry.freelancer = paidTo ledger.receipts id entry.freelancer) ∧
    ((∀ point ∈ trace,
        ¬ (point.2.AuthorisedBy entry.freelancer ∨ point.2.AuthorisedBy entry.admin)) →
      paidTo later.receipts id entry.client = paidTo ledger.receipts id entry.client) ∧
    (entry.status = .disputed → (∀ point ∈ trace, ¬ point.2.ResolvedBy id entry.admin) →
      later.entry id = some entry ∧ paidOut later.receipts id = paidOut ledger.receipts id) ∧
    ∀ token party amount, .transfer token party amount ∈ tokenCalls later.receipts id →
      party = entry.client ∨ party = entry.freelancer := by
  refine ⟨?_, ?_, ?_, ?_⟩
  · refine run_unpaid (fun action => action.AuthorisedBy entry.client ∨
      action.AuthorisedBy entry.admin) ?_ run found
    intro auths call middle payouts next event terms barred authorised moves
    rw [← terms.freelancer]
    apply moves.nothing_to_freelancer (terms.distinct distinct)
    · rintro same
      exact barred (.inl (terms.client ▸ same ▸ authorised))
    · rintro same
      exact barred (.inr (terms.admin ▸ same ▸ authorised))
  · refine run_unpaid (fun action => action.AuthorisedBy entry.freelancer ∨
      action.AuthorisedBy entry.admin) ?_ run found
    intro auths call middle payouts next event terms barred authorised moves
    rw [← terms.client]
    apply moves.nothing_to_client (terms.distinct distinct)
    · rintro same
      exact barred (.inl (terms.freelancer ▸ same ▸ authorised))
    · rintro same
      exact barred (.inr (terms.admin ▸ same ▸ authorised))
  · intro disputed meets
    obtain ⟨stored, same⟩ := run_disputed run found disputed meets
    exact ⟨stored, by rw [paidOut, paidOut, same]⟩
  · intro token party amount member
    obtain ⟨next, stored, terms, _⟩ := run_keeps run found
    obtain ⟨first, ttl, tokens, start⟩ := reached
    have admitted := reachable_admitted ⟨_, ttl, tokens, start.trans run⟩ id
    unfold Ledger.Admitted at admitted
    rw [stored] at admitted
    rcases admitted _ member with pull | ⟨_, _, same, payee⟩
    · contradiction
    · cases same
      rw [terms.client, terms.freelancer] at payee
      exact payee

/-- On their own the freelancer disputes and tries to collect in vain. -/
theorem nobody_alone_freelancer :
    paidTo ((Bank.ledger [Bank.funding]).actAll (Bank.host 0) [.call {2} (.release 7 2),
      .call {2} (.dispute 7 2), .call {2} (.resolveDispute 7 2 .releaseToFreelancer 0)]).receipts
        7 2 = paidTo (Bank.ledger [Bank.funding]).receipts 7 2 := by
  have found : (Bank.ledger [Bank.funding]).entry 7 = some (.opened 1 2 3 (.fromU32 1000) 9) := by
    decide
  obtain ⟨trace, run, same⟩ := actAll_run (Bank.host 0) [.call {2} (.release 7 2),
    .call {2} (.dispute 7 2), .call {2} (.resolveDispute 7 2 .releaseToFreelancer 0)]
    (Bank.ledger [Bank.funding])
  refine (nobody_alone (Bank.ledger_reachable _) found ⟨by decide, by decide, by decide⟩ run).1 ?_
  intro point member
  have listed := List.mem_map_of_mem (f := Prod.snd) member
  rw [same] at listed
  simp only [List.mem_cons, List.not_mem_nil, or_false] at listed
  rcases listed with action | action | action
  all_goals
    rw [action]
    simp only [Action.AuthorisedBy]
    decide

end Stellance.Escrow
