import Stellance.Escrow.Payees
import Stellance.Backend.Approval
import Stellance.Backend.Grounds

/-! The books and the chain. Whatever the requests do at the same time and whatever fails,
every payment on the books has its call in the ledger, what the milestone payments of a
contract were converted to never comes to more than the escrow contract has paid its
freelancer, and the status of a contract tells what has become of its escrow. -/

namespace Stellance.Escrow
variable {Address Symbol τ : Type} [DecidableEq Address] [DecidableEq Symbol] {host : Host Address τ}
  {ledger before after : Ledger Address Symbol τ} {action : Action Address Symbol τ} {id : Symbol}
  {entry : EscrowEntry Address} {auths : Finset Address} {caller : Address} {amount : I128}

/-- Nobody gives anything back. -/
theorem step_paidTo (stepped : Step host before action after) (id : Symbol) (party : Address) :
    paidTo before.receipts id party ≤ paidTo after.receipts id party := by
  cases didTo_of_step id stepped with
  | nothing _ quiet => rw [paidTo, paidTo, quiet]
  | opened _ _ _ _ pulled => rw [paidTo_pulled pulled]
  | moved _ _ _ moves _ _ paid =>
    rw [paidTo_paid paid]
    have := moves.payoutSumTo_nonneg party
    omega

theorem reachable_paidTo (reached : Reachable host ledger) (id : Symbol) (party : Address) :
    0 ≤ paidTo ledger.receipts id party := by
  obtain ⟨_, ttl, tokens, run⟩ := reached
  refine run.invariant (I := fun ledger => 0 ≤ paidTo ledger.receipts id party) ?_ (le_refl _)
  intro before action after nonneg stepped
  exact nonneg.trans (step_paidTo stepped id party)

/-- A milestone release pays the freelancer its amount. -/
theorem release_paidTo
    (succeeds : (invoke host auths (.releaseMilestone id caller amount) ledger.state).1.outcome = .ok) :
    0 < amount.val ∧ ∃ entry next, ledger.entry id = some entry ∧
      (ledger.act host (.call auths (.releaseMilestone id caller amount))).entry id = some next ∧
      next.freelancer = entry.freelancer ∧
      paidTo (ledger.act host (.call auths (.releaseMilestone id caller amount))).receipts id entry.freelancer =
        paidTo ledger.receipts id entry.freelancer + amount.val := by
  have stepped : Step host ledger (.call auths (.releaseMilestone id caller amount))
      (ledger.act host (.call auths (.releaseMilestone id caller amount))) := rfl
  have last : (ledger.act host (.call auths (.releaseMilestone id caller amount))).receipts =
      ledger.receipts ++ [(invoke host auths (.releaseMilestone id caller amount) ledger.state).1] := rfl
  generalize ledger.act host (.call auths (.releaseMilestone id caller amount)) = after at stepped last ⊢
  cases did_of_step stepped with
  | stopped =>
    rw [← List.singleton_inj.mp (List.append_cancel_left last)] at succeeds
    contradiction
  | @moved _ _ entry payouts next event tokens authorised found moves paid =>
    cases moves with
    | releaseMilestone funded allowed remaining left positive =>
      refine ⟨positive, _, _, found, stored_here, rfl, ?_⟩
      rw [paidTo_paid (tokenCalls_own rfl)]
      simp [payoutSumTo]

omit [DecidableEq Address] in
theorem mem_accepted_snoc {receipts : List (Receipt Address Symbol)} {receipt : Receipt Address Symbol}
    {call : Call Address Symbol} (member : call ∈ accepted (receipts ++ [receipt]) id) :
    call ∈ accepted receipts id ∨ call = receipt.call ∧ receipt.outcome = .ok ∧ receipt.call.contractId = id := by
  by_cases own : receipt.call.contractId = id
  · by_cases ok : receipt.outcome = .ok
    · rw [accepted_own own ok] at member
      exact (List.mem_append.mp member).imp_right fun new => ⟨List.mem_singleton.mp new, ok, own⟩
    · rw [accepted_stopped ok] at member
      exact .inl member
  · rw [accepted_other own] at member
    exact .inl member

/-- Who disputed an escrow is a party to it. -/
def Ledger.Disputes (ledger : Ledger Address Symbol τ) : Prop :=
  ∀ id caller, .dispute id caller ∈ accepted ledger.receipts id →
    ∃ entry, ledger.entry id = some entry ∧ (caller = entry.client ∨ caller = entry.freelancer)

theorem step_disputes (disputes : before.Disputes) (stepped : Step host before action after) :
    after.Disputes := by
  intro id caller member
  have old : .dispute id caller ∈ accepted before.receipts id →
      ∃ entry, after.entry id = some entry ∧ (caller = entry.client ∨ caller = entry.freelancer) := by
    intro member
    obtain ⟨entry, found, party⟩ := disputes id caller member
    obtain ⟨next, stored, terms, _⟩ := step_status stepped found
    exact ⟨next, stored, by rwa [terms.client, terms.freelancer]⟩
  cases did_of_step stepped with
  | outside => exact old member
  | stopped =>
    rcases mem_accepted_snoc member with earlier | ⟨_, ok, _⟩
    · exact old earlier
    · contradiction
  | opened =>
    rcases mem_accepted_snoc member with earlier | ⟨same, _⟩
    · exact old earlier
    · contradiction
  | @moved _ call _ _ _ _ _ authorised found moves =>
    rcases mem_accepted_snoc member with earlier | ⟨same, _⟩
    · exact old earlier
    · obtain rfl : .dispute id caller = call := same
      cases moves with
      | dispute funded allowed => exact ⟨_, stored_here, allowed⟩

theorem reachable_disputes (reached : Reachable host ledger) : ledger.Disputes := by
  obtain ⟨_, ttl, tokens, run⟩ := reached
  exact run.invariant step_disputes fun _ _ member => nomatch member

end Stellance.Escrow

namespace Stellance.Backend
open ContractsService Process

/-- What the amount of a payment is converted to for its release. -/
def Payment.released (numbers : Numbers) (payment : Payment) : Nat := (numbers.release payment.amount).getD 0

/-- The kind of call that a payment on the books records. -/
def Payment.Records (numbers : Numbers) (payment : Payment) (call : ChainCall) : Prop :=
  match payment.milestoneId, call with
  | some _, .releaseMilestone _ _ amount =>
      ∃ stroops, numbers.release payment.amount = some stroops ∧ amount.val = stroops
  | none, .refund .. | none, .resolveDispute .. => True
  | _, _ => False

namespace Db

/-- What the books say was paid for milestones of a contract. -/
def milestonePayments (db : Db) (id : Uuid) : List Payment :=
  (db.paymentsOf id).filter (·.milestoneId.isSome)

def releasedOnBooks (db : Db) (id : Uuid) : Nat := ((db.milestonePayments id).map Payment.amount).sum

/-- What these payments were converted to. -/
def convertedOnBooks (db : Db) (numbers : Numbers) (id : Uuid) : Nat :=
  ((db.milestonePayments id).map (Payment.released numbers)).sum

end Db

/-- A milestone release of the contract that its request was told of, by hash and amount. -/
def releaseOf (id : Uuid) : Occurrence → Option (TxHash × Nat)
  | .served _ (.submit _ (.releaseMilestone key _ amount)) (.ok hash) =>
      if key = id.symbol then some (hash, amount.val.toNat) else none
  | _ => none

section Books
variable {τ : Type} {host : Escrow.Host Address τ} {config : Config} {faults : Prop}
  {service service' start : Service τ} {occurrence : Occurrence} {id : Uuid} {index : Nat}
  {trace : List (Service τ × Occurrence)} {view : ContractView} {call : ChainCall} {hash : TxHash}
  {payment : Payment} {op : Op}

/-! ### Payments and their calls -/

/-- A payment is created on the grounds of a call that the network took. -/
theorem Grounds.recorded {told : List Exchange} (grounds : Grounds config.numbers told op)
    (creates : .paymentCreate payment ∈ op.statements) :
    ∃ call, Took told call payment.stellarTxHash ∧ call.contractId = payment.contractId.symbol ∧
      payment.Records config.numbers call := by
  cases grounds with
  | confirmed | submitted | completed | disputed | disputedBare => simp [Op.statements] at creates
  | paid read listed converted same answered =>
    simp only [Op.statements, payMilestone, List.mem_cons, List.not_mem_nil, or_false, reduceCtorEq, false_or,
      Statement.paymentCreate.injEq] at creates
    subst creates
    exact ⟨_, answered, rfl, _, converted, same⟩
  | resolved decided answered =>
    simp only [Op.statements, List.mem_cons, List.not_mem_nil, or_false, reduceCtorEq,
      Statement.paymentCreate.injEq] at creates
    subst creates
    exact ⟨_, answered, rfl, trivial⟩
  | refunded answered =>
    simp only [Op.statements, cancelStatements, List.mem_append, List.mem_cons, List.not_mem_nil, or_false,
      reduceCtorEq, Statement.paymentCreate.injEq] at creates
    subst creates
    exact ⟨_, answered, rfl, trivial⟩
  | abandoned => simp [Op.statements, cancelStatements] at creates

/-- Who creates a payment writes. -/
theorem Op.writing_of_statements {statement : Statement} (listed : statement ∈ op.statements) : op.Writing := by
  cases op <;> trivial

/-- Every payment on the books was told of as a call that the network took. -/
theorem run_receipt (run : Runs.Run (Service.Step host config faults) start trace service)
    (started : start.Started) (member : payment ∈ service.world.db.payments.rows) :
    ∃ index call, Took (told index trace) call payment.stellarTxHash ∧
      call.contractId = payment.contractId.symbol ∧ payment.Records config.numbers call := by
  obtain ⟨earlier, point, rest, index, op, value, rfl, served, creates⟩ :=
    run_payment run started.payments member
  obtain ⟨before, after, step, _⟩ := run.cut rfl
  rw [served] at step
  obtain ⟨call, ⟨signer, told⟩, own, records⟩ :=
    (run_grounds before started.running step (Op.writing_of_statements creates)).recorded creates
  exact ⟨index, call, ⟨signer, told_more told⟩, own, records⟩

/-! ### Sums -/

/-- The releases of a contract that requests were told of in the course of a run. -/
def releasesOf (id : Uuid) (trace : List (Service τ × Occurrence)) : List (TxHash × Nat) :=
  trace.filterMap fun point => releaseOf id point.2

/-- What these releases come to is paid to the freelancer of the entry. -/
structure Released (id : Uuid) (trace : List (Service τ × Occurrence)) (service : Service τ) : Prop where
  paid : ∀ entry, service.world.chain.ledger.entry id.symbol = some entry →
    (((releasesOf id trace).map Prod.snd).sum : Int) ≤
      Escrow.paidTo service.world.chain.ledger.receipts id.symbol entry.freelancer
  unfunded : service.world.chain.ledger.entry id.symbol = none → releasesOf id trace = []

theorem releasesOf_step : releasesOf id (trace ++ [(service, occurrence)]) =
    releasesOf id trace ++ (releaseOf id occurrence).toList := by
  unfold releasesOf
  rw [List.filterMap_append]
  cases release : releaseOf id occurrence <;> simp [release]

theorem releaseOf_some {pair : TxHash × Nat} (release : releaseOf id occurrence = some pair) :
    ∃ index signer caller amount, pair.2 = amount.val.toNat ∧
      occurrence = .served index (.submit signer (.releaseMilestone id.symbol caller amount)) (.ok pair.1) := by
  unfold releaseOf at release
  split at release
  · obtain ⟨rfl, same⟩ := Option.ite_none_right_eq_some.mp release
    cases same
    exact ⟨_, _, _, _, rfl, rfl⟩
  · contradiction

/-- The ledger makes a step of its own, or none. -/
theorem step_ledger (step : Service.Step host config faults service occurrence service') :
    service'.world.chain.ledger = service.world.chain.ledger ∨
      ∃ action, Escrow.Step host service.world.chain.ledger action service'.world.chain.ledger := by
  cases step with
  | start => exact .inl rfl
  | served found answered =>
    cases answered with
    | applied | failed => exact .inr ⟨.call _ _, rfl⟩
    | _ => exact .inl rfl
  | outside around =>
    cases around with
    | elsewhere => exact .inl rfl
    | network moved =>
      cases moved with
      | called | settled => exact .inr ⟨.call _ _, rfl⟩
      | unrelated => exact .inr ⟨.outside _, rfl⟩
      | expired => exact .inl rfl

theorem step_released (released : Released id trace service)
    (reached : Escrow.Reachable host service.world.chain.ledger)
    (step : Service.Step host config faults service occurrence service') :
    Released id (trace ++ [(service, occurrence)]) service' := by
  cases release : releaseOf id occurrence with
  | some pair =>
    have more : ((releasesOf id (trace ++ [(service, occurrence)])).map Prod.snd).sum =
        ((releasesOf id trace).map Prod.snd).sum + pair.2 := by
      rw [releasesOf_step, release]
      simp
    obtain ⟨index, signer, caller, amount, worth, rfl⟩ := releaseOf_some release
    cases step with
    | served found answered =>
      cases answered with
      | applied fresh succeeds =>
        obtain ⟨positive, entry, next, there, stored, freelancer, paid⟩ := Escrow.release_paidTo succeeds
        have before := released.paid entry there
        dsimp only at before
        constructor
        · intro entry' stored'
          obtain rfl := Option.some.inj (stored.symm.trans stored')
          rw [more, freelancer]
          change _ ≤ Escrow.paidTo (Escrow.Ledger.act host _ _).receipts _ _
          rw [paid]
          omega
        · intro absent
          exact nomatch stored.symm.trans absent
  | none =>
    have same : releasesOf id (trace ++ [(service, occurrence)]) = releasesOf id trace := by
      rw [releasesOf_step, release]
      exact List.append_nil _
    obtain ⟨paid, unfunded⟩ := released
    rw [← same] at paid unfunded
    rcases step_ledger step with still | ⟨action, stepped⟩
    · exact ⟨still ▸ paid, still ▸ unfunded⟩
    · cases before : service.world.chain.ledger.entry id.symbol with
      | some entry =>
        obtain ⟨next, stored, terms, _⟩ := Escrow.step_status stepped before
        constructor
        · intro entry' stored'
          obtain rfl := Option.some.inj (stored.symm.trans stored')
          rw [terms.freelancer]
          exact (paid entry before).trans (Escrow.step_paidTo stepped _ _)
        · intro absent
          exact nomatch stored.symm.trans absent
      | none =>
        have nothing := unfunded before
        refine ⟨fun entry' _ => ?_, fun _ => nothing⟩
        rw [nothing]
        exact (Escrow.reachable_paidTo reached _ _).trans (Escrow.step_paidTo stepped _ _)

theorem run_released (run : Runs.Run (Service.Step host config faults) start trace service)
    (deployed : Escrow.Reachable host start.world.chain.ledger) (id : Uuid) : Released id trace service := by
  refine run.along (I := Released id) ?_ ⟨fun entry _ => Escrow.reachable_paidTo deployed _ _, fun _ => rfl⟩
  intro trace service occurrence service' run released step
  exact step_released released (run_reachable run deployed) step

/-- A release that was told of is among the releases of the run. -/
theorem releasesOf_told {key : Symbol} {caller : Address} {amount : Escrow.I128} (own : key = id.symbol)
    (answered : Took (told index trace) (.releaseMilestone key caller amount) hash) :
    (hash, amount.val.toNat) ∈ releasesOf id trace := by
  obtain ⟨signer, member⟩ := answered
  obtain ⟨point, inside, served⟩ := mem_told.mp member
  refine List.mem_filterMap.mpr ⟨point, inside, ?_⟩
  rw [served]
  exact if_pos own

theorem Payment.Records.release {numbers : Numbers} {milestoneId : Uuid} (records : payment.Records numbers call)
    (milestone : payment.milestoneId = some milestoneId) :
    ∃ key caller amount, call = .releaseMilestone key caller amount ∧ amount.val = payment.released numbers := by
  unfold Payment.Records at records
  rw [milestone] at records
  cases call with
  | releaseMilestone key caller amount =>
    obtain ⟨stroops, converted, same⟩ := records
    refine ⟨key, caller, amount, rfl, ?_⟩
    rw [Payment.released, converted, same]
    rfl
  | _ => contradiction

/-- The books say of no contract that more was released than its freelancer got. -/
theorem run_convertedOnBooks (run : Runs.Run (Service.Step host config faults) start trace service)
    (started : start.Started) (deployed : Escrow.Reachable host start.world.chain.ledger)
    {entry : Escrow.EscrowEntry Address} (stored : service.world.chain.ledger.entry id.symbol = some entry) :
    (service.world.db.convertedOnBooks config.numbers id : Int) ≤
      Escrow.paidTo service.world.chain.ledger.receipts id.symbol entry.freelancer := by
  have bound := (run_released run deployed id).paid entry stored
  refine le_trans (Int.ofNat_le.mpr ?_) bound
  refine Table.sum_covered (f := fun payment : Payment => (payment.stellarTxHash, payment.released config.numbers))
    (g := fun pair => pair) ?_ ?_
  · exact ((List.filter_sublist.trans List.filter_sublist).map _).nodup service.world.db.payments.nodup
  · intro payment listed
    obtain ⟨member, milestone⟩ := List.mem_filter.mp listed
    obtain ⟨milestoneId, some'⟩ := Option.isSome_iff_exists.mp milestone
    obtain ⟨inside, here⟩ := Db.mem_paymentsOf.mp member
    obtain ⟨index, call, answered, own, records⟩ := run_receipt run started inside
    obtain ⟨key, caller, amount, rfl, stroops⟩ := records.release some'
    refine ⟨_, releasesOf_told (own.trans (congrArg Uuid.symbol here)) answered, ?_⟩
    rw [stroops]
    rfl

/-- Nor do the rows, where none of them was converted to less than it says. -/
theorem releasedOnBooks_le {db : Db} {numbers : Numbers}
    (whole : ∀ payment ∈ db.milestonePayments id, payment.amount ≤ payment.released numbers) :
    db.releasedOnBooks id ≤ db.convertedOnBooks numbers id := List.sum_le_sum whole

/-- Whatever runs at the same time and whatever fails, each payment on the books records a call that
the escrow contract has accepted, of the converted amount. What the payments for the milestones of a
contract were converted to never exceeds what the escrow contract has paid its freelancer, nor does
what the books say where none was converted to less, as none is below 2⁵¹ stroops. -/
theorem books_covered (run : Runs.Run (Service.Step host config faults) start trace service)
    (started : start.Started) (deployed : Escrow.Reachable host start.world.chain.ledger) :
    (∀ payment ∈ service.world.db.payments.rows, ∃ call, service.world.Accepted call ∧
      call.contractId = payment.contractId.symbol ∧ payment.Records config.numbers call) ∧
    ∀ id entry, service.world.chain.ledger.entry id.symbol = some entry →
      (service.world.db.convertedOnBooks config.numbers id : Int) ≤
        Escrow.paidTo service.world.chain.ledger.receipts id.symbol entry.freelancer ∧
      ((∀ payment ∈ service.world.db.milestonePayments id, payment.amount ≤ payment.released config.numbers) →
        (service.world.db.releasedOnBooks id : Int) ≤
          Escrow.paidTo service.world.chain.ledger.receipts id.symbol entry.freelancer) := by
  constructor
  · intro payment member
    obtain ⟨index, call, answered, own, records⟩ := run_receipt run started member
    exact ⟨call, run_took run answered, own, records⟩
  · intro id entry stored
    have covered := run_convertedOnBooks run started deployed stored
    exact ⟨covered, fun whole => (Int.ofNat_le.mpr (releasedOnBooks_le whole)).trans covered⟩

/-- A submitted milestone is approved and paid. -/
theorem books_covered_sample : ∃ (service : Service (Escrow.Bank Address)) (entry : Escrow.EscrowEntry Address),
    service.world.db.releasedOnBooks Sample.contractId = 100 ∧
      service.world.chain.ledger.entry Sample.contractId.symbol = some entry ∧
      100 ≤ Escrow.paidTo service.world.chain.ledger.receipts Sample.contractId.symbol entry.freelancer := by
  have happens : ∃ offered, Sample.plays Sample.idle Sample.offer = some offered ∧
      Sample.hash ∉ offered.2.world.chain.included ∧
      ∃ paid, Sample.plays (Sample.funded offered.2) (Sample.submissions ++ Sample.payment) = some paid ∧
      paid.2.world.db.releasedOnBooks Sample.contractId = 100 ∧
      (∀ payment ∈ paid.2.world.db.milestonePayments Sample.contractId, payment.amount ≤ payment.released .doubles) ∧
      (paid.2.world.chain.ledger.entry Sample.contractId.symbol).isSome = true := by
    decide
  obtain ⟨offered, first, fresh, paid, second, booked, whole, there⟩ := happens
  obtain ⟨entry, stored⟩ := Option.isSome_iff_exists.mp there
  have run := Sample.run_around first second (.called _ _ fresh) rfl
  obtain ⟨_, covered⟩ := books_covered run ⟨rfl, rfl, rfl, rfl⟩ Sample.deployed
  have bound := (covered Sample.contractId entry stored).2 whole
  rw [booked] at bound
  exact ⟨paid.2, entry, booked, stored, bound⟩

/-! ### Statuses -/

/-- What a status says of the escrow of a contract, as far as the request was told that wrote it. -/
def Tells (told : List Exchange) (id : Uuid) : ContractStatus → Prop
  | .pending => False
  | .active => True
  | .disputed => (∃ admin hash, Took told (.dispute id.symbol admin) hash) ∨
      ∃ view, seen id view ∈ told ∧ view.status = .active ∧ view.escrowTxHash = none
  | .completed => (∃ admin decision bps hash, decision ≠ .refundToClient ∧
        Took told (.resolveDispute id.symbol admin decision bps) hash) ∨
      ∃ view, seen id view ∈ told ∧ ∀ m ∈ view.milestones, m.status = .paid
  | .cancelled => (∃ admin hash, Took told (.refund id.symbol admin) hash) ∨
      (∃ admin bps hash, Took told (.resolveDispute id.symbol admin .refundToClient bps) hash) ∨
      ∃ view, seen id view ∈ told ∧ view.escrowTxHash = none

theorem Tells.mono {told told' : List Exchange} {status : ContractStatus} (tells : Tells told id status)
    (more : ∀ exchange ∈ told, exchange ∈ told') : Tells told' id status := by
  have answered : ∀ {call hash}, Took told call hash → Took told' call hash :=
    fun ⟨signer, member⟩ => ⟨signer, more _ member⟩
  cases status with
  | pending | active => exact tells
  | disputed =>
    rcases tells with ⟨admin, hash, told⟩ | ⟨view, read, active, bare⟩
    · exact .inl ⟨admin, hash, answered told⟩
    · exact .inr ⟨view, more _ read, active, bare⟩
  | completed =>
    rcases tells with ⟨admin, decision, bps, hash, other, told⟩ | ⟨view, read, allPaid⟩
    · exact .inl ⟨admin, decision, bps, hash, other, answered told⟩
    · exact .inr ⟨view, more _ read, allPaid⟩
  | cancelled =>
    rcases tells with ⟨admin, hash, told⟩ | ⟨admin, bps, hash, told⟩ | ⟨view, read, bare⟩
    · exact .inl ⟨admin, hash, answered told⟩
    · exact .inr (.inl ⟨admin, bps, hash, answered told⟩)
    · exact .inr (.inr ⟨view, more _ read, bare⟩)

theorem final_refund {text : String} {decision : Escrow.DisputeDecision}
    (decided : decisionMap text = some (some decision)) :
    finalStatus text = .cancelled ∧ decision = .refundToClient ∨
      finalStatus text = .completed ∧ decision ≠ .refundToClient := by
  unfold decisionMap at decided
  split at decided
  · cases decided
    exact .inr ⟨by decide, by decide⟩
  · cases decided
    exact .inl ⟨by decide, rfl⟩
  · cases decided
    exact .inr ⟨by decide, by decide⟩
  · split at decided <;> cases decided

theorem status_statement {status : ContractStatus} (written : (statusColumn id).operation op = some status) :
    ∃ txHash, .contractUpdate id status txHash ∈ op.statements := by
  obtain ⟨statement, listed, here⟩ := Column.operation_statement written
  cases statement with
  | contractUpdate key other txHash =>
    obtain ⟨rfl, same⟩ := Option.ite_none_right_eq_some.mp here
    obtain rfl := Option.some.inj same
    exact ⟨txHash, listed⟩
  | _ => contradiction

theorem milestone_statement {status : MilestoneStatus}
    (written : (milestoneColumn id).operation op = some status) : .milestoneUpdate id status ∈ op.statements := by
  obtain ⟨statement, listed, here⟩ := Column.operation_statement written
  cases statement with
  | milestoneUpdate key other =>
    obtain ⟨rfl, same⟩ := Option.ite_none_right_eq_some.mp here
    obtain rfl := Option.some.inj same
    exact listed
  | _ => contradiction

theorem Grounds.tells {told : List Exchange} {status : ContractStatus} {txHash : Option TxHash}
    (grounds : Grounds config.numbers told op) (listed : .contractUpdate id status txHash ∈ op.statements) :
    Tells told id status := by
  cases grounds with
  | submitted | paid => simp [Op.statements, payMilestone] at listed
  | confirmed =>
    obtain ⟨rfl, rfl, rfl⟩ := Statement.contractUpdate.inj (List.mem_singleton.mp listed)
    trivial
  | completed read allPaid =>
    obtain ⟨rfl, rfl, rfl⟩ := Statement.contractUpdate.inj (List.mem_singleton.mp listed)
    exact .inr ⟨_, read, allPaid⟩
  | disputed answered =>
    obtain ⟨rfl, rfl, rfl⟩ := Statement.contractUpdate.inj (List.mem_singleton.mp listed)
    exact .inl ⟨_, _, answered⟩
  | disputedBare read active bare =>
    obtain ⟨rfl, rfl, rfl⟩ := Statement.contractUpdate.inj (List.mem_singleton.mp listed)
    exact .inr ⟨_, read, active, bare⟩
  | resolved decided answered =>
    simp only [Op.statements, List.mem_cons, List.not_mem_nil, or_false, reduceCtorEq, false_or,
      Statement.contractUpdate.injEq] at listed
    obtain ⟨rfl, rfl, rfl⟩ := listed
    rcases final_refund decided with ⟨final, rfl⟩ | ⟨final, other⟩
    · rw [final]
      exact .inr (.inl ⟨_, _, _, answered⟩)
    · rw [final]
      exact .inl ⟨_, _, _, _, other, answered⟩
  | refunded answered =>
    simp only [Op.statements, cancelStatements, List.mem_append, List.mem_cons, List.not_mem_nil, or_false,
      reduceCtorEq, false_or, Statement.contractUpdate.injEq] at listed
    obtain ⟨rfl, rfl, rfl⟩ := listed
    exact .inl ⟨_, _, answered⟩
  | abandoned read bare =>
    simp only [Op.statements, cancelStatements, List.mem_append, List.mem_cons, List.not_mem_nil, or_false,
      reduceCtorEq, false_or, Statement.contractUpdate.injEq] at listed
    obtain ⟨rfl, rfl, rfl⟩ := listed
    exact .inr (.inr ⟨_, read, bare⟩)

/-- Only a confirmation makes a contract active. -/
theorem Grounds.activates {told : List Exchange} {txHash : Option TxHash} (grounds : Grounds config.numbers told op)
    (listed : .contractUpdate id .active txHash ∈ op.statements) :
    ∃ hash, op = .contractUpdate id .active (some hash) := by
  cases grounds with
  | confirmed =>
    obtain ⟨rfl, _, rfl⟩ := Statement.contractUpdate.inj (List.mem_singleton.mp listed)
    exact ⟨_, rfl⟩
  | resolved decided =>
    rcases final_refund decided with ⟨final, _⟩ | ⟨final, _⟩ <;> simp [Op.statements, final] at listed
  | _ => simp [Op.statements, payMilestone, cancelStatements] at listed

/-- Who wrote the status of a contract had grounds to. -/
theorem status_grounds {row : Contract} (run : Runs.Run (Service.Step host config faults) start trace service)
    (started : start.Started) (found : service.world.db.contracts.find id = some row)
    (moved : row.status ≠ .pending) :
    ∃ earlier point rest index op value txHash, trace = earlier ++ point :: rest ∧
      point.2 = .served index op (.ok value) ∧ Grounds config.numbers (told index earlier) op ∧
      .contractUpdate id row.status txHash ∈ op.statements := by
  obtain ⟨earlier, point, rest, cut, left⟩ := run_status run started.contracts found moved
  obtain ⟨index, op, value, served, written⟩ := (statusColumn id).left_eq_some left
  obtain ⟨before, after, step, _⟩ := run.cut cut
  obtain ⟨txHash, listed⟩ := status_statement written
  rw [served] at step
  have grounds := run_grounds before started.running step (Op.writing_of_statements listed)
  exact ⟨earlier, point, rest, index, op, value, txHash, cut, served, grounds, listed⟩

/-- An active contract has a funding on record. -/
theorem run_active {row : Contract} (run : Runs.Run (Service.Step host config faults) start trace service)
    (started : start.Started) (found : service.world.db.contracts.find id = some row) (active : row.status = .active) :
    service.world.db.Funded id := by
  obtain ⟨earlier, ⟨⟨world, running⟩, occurrence⟩, rest, index, op, value, txHash, cut, served, grounds, listed⟩ :=
    status_grounds run started found (by simp [active])
  obtain ⟨_, after, step, later⟩ := run.cut cut
  refine run_funded later ?_
  rw [active] at listed
  obtain ⟨hash, rfl⟩ := grounds.activates listed
  dsimp only at served step
  subst served
  cases step with
  | served _ answered =>
    cases answered with
    | contractUpdated updated =>
      obtain ⟨row', _, stored, _⟩ := Db.contractUpdate_some updated
      exact ⟨_, hash, stored, rfl⟩

/-- Only the commit of a release makes a milestone paid. -/
theorem Grounds.pays {told : List Exchange} {key : Uuid} (grounds : Grounds config.numbers told op)
    (listed : .milestoneUpdate key .paid ∈ op.statements) :
    ∃ id view milestone hash, op = .transaction (payMilestone id milestone hash) ∧ milestone.id = key ∧
      seen id view ∈ told ∧ milestone ∈ view.milestones := by
  cases grounds with
  | paid read member =>
    simp only [Op.statements, payMilestone, List.mem_cons, List.not_mem_nil, or_false, reduceCtorEq, and_false,
      and_true, false_or, Statement.milestoneUpdate.injEq] at listed
    exact ⟨_, _, _, _, rfl, listed.symm, read, member⟩
  | _ => simp [Op.statements, cancelStatements] at listed

/-- A paid milestone has its payment on the books. -/
theorem run_paid {m : Milestone} {key : Uuid} (run : Runs.Run (Service.Step host config faults) start trace service)
    (started : start.Started) (found : service.world.db.milestones.find key = some m) (paid : m.status = .paid) :
    ∃ payment ∈ service.world.db.payments.rows, payment.contractId = m.contractId ∧
      payment.milestoneId = some key ∧ payment.amount = m.amount := by
  obtain ⟨earlier, ⟨⟨world, running⟩, occurrence⟩, rest, cut, left⟩ :=
    run_milestone run started.milestones found (by simp [paid])
  obtain ⟨index, op, value, served, written⟩ := (milestoneColumn key).left_eq_some left
  obtain ⟨before, after, step, later⟩ := run.cut cut
  rw [paid] at written
  have listed := milestone_statement written
  dsimp only at served step before
  subst served
  obtain ⟨id, view, milestone, hash, rfl, rfl, read, member⟩ :=
    (run_grounds before started.running step (Op.writing_of_statements listed)).pays listed
  -- the milestone is where the request has read it, at the same amount
  obtain ⟨_, reading, _, _, _, since, view_there⟩ := told_reading before read
  rw [(Db.contractView_some view_there).2.1] at member
  obtain ⟨inside, here⟩ := Db.mem_milestonesOf.mp member
  obtain ⟨m', found', place, same⟩ :=
    run_places (since.trans (.head step later)) milestone milestone.id (Table.find_of_mem inside)
  obtain rfl := Option.some.inj (found.symm.trans found')
  refine ⟨⟨id, some milestone.id, milestone.amount, hash⟩, ?_, here.symm.trans place.symm, rfl, same.symm⟩
  refine run_payment_kept later ?_
  cases step with
  | served _ answered =>
    cases answered with
    | committed executed =>
      rw [(Db.payMilestone_some executed).2.2.2.2.1]
      exact List.mem_append_right _ List.mem_cons_self

/-- All that was agreed to pay for the milestones of a contract. -/
def Db.agreed (db : Db) (id : Uuid) : Nat := ((db.milestonesOf id).map Milestone.amount).sum

/-- What the amounts agreed on are converted to for their releases. -/
def Db.convertedAgreed (db : Db) (numbers : Numbers) (id : Uuid) : Nat :=
  ((db.milestonesOf id).map (Milestone.released numbers)).sum

/-- The plan of a contract, which nothing writes. -/
def planColumn (id : Uuid) : Column (List (Uuid × Nat)) where
  value db := (db.contracts.find id).map fun _ => (db.milestonesOf id).map fun m => (m.id, m.amount)
  written _ := none
  writes _ := nofun
  keeps := by
    intro db statement db' plan executed _ held
    obtain ⟨row, found, same⟩ := Option.map_eq_some_iff.mp held
    have plan' : (db'.milestonesOf id).map (fun m => (m.id, m.amount)) = plan := by
      cases statement with
      | contractUpdate =>
        obtain ⟨_, _, _, _, milestones, _⟩ := Db.contractUpdate_some executed
        rw [Db.milestonesOf, milestones]
        exact same
      | milestoneUpdate =>
        rw [(Db.milestoneUpdate_some executed).2.2.2.2.2, Milestone.map_mark _ fun _ => rfl]
        exact same
      | jobUpdate =>
        rw [Db.milestonesOf, (Db.jobUpdate_some executed).2.1]
        exact same
      | paymentCreate =>
        rw [Db.milestonesOf, (Db.paymentCreate_some executed).2.1]
        exact same
    obtain ⟨row', found'⟩ : ∃ row', db'.contracts.find id = some row' := by
      by_cases other : ∀ status hash, statement ≠ .contractUpdate id status hash
      · exact ⟨row, (Db.execute_contract executed other).trans found⟩
      · simp only [not_forall, not_not] at other
        obtain ⟨status, hash, rfl⟩ := other
        obtain ⟨_, _, stored, _⟩ := Db.contractUpdate_some executed
        exact ⟨_, stored⟩
    rw [found', Option.map_some, plan']
  created := by
    intro db db' key ids data plan created held
    obtain ⟨row, found, same⟩ := Option.map_eq_some_iff.mp held
    obtain ⟨_, absent, _, others, _, _, planned⟩ := Db.create_some created
    have other : id ≠ key := by
      rintro rfl
      rw [absent] at found
      contradiction
    rw [others id other, found, planned, if_neg other, List.append_nil, Option.map_some, same]
  elsewhere _ _ _ _ := rfl

/-- Where a request has read that all milestones are paid, the books say all that was agreed was released,
at the same amounts. -/
theorem run_allPaid (run : Runs.Run (Service.Step host config faults) start trace service)
    (started : start.Started) (read : seen id view ∈ told index trace)
    (allPaid : ∀ m ∈ view.milestones, m.status = .paid) (worth : Nat → Nat) :
    ((service.world.db.milestonesOf id).map fun m => worth m.amount).sum ≤
      ((service.world.db.milestonePayments id).map fun payment => worth payment.amount).sum := by
  obtain ⟨earlier, reading, _, _, before, since, found⟩ := told_reading run read
  obtain ⟨stored, milestones, _⟩ := Db.contractView_some found
  rw [milestones] at allPaid
  have planned : (planColumn id).value service.world.db =
      some ((reading.1.world.db.milestonesOf id).map fun m => (m.id, m.amount)) := by
    refine Column.run_unwritten since (fun _ => rfl) ?_
    exact congrArg (Option.map _) stored
  obtain ⟨row, _, same⟩ := Option.map_eq_some_iff.mp planned
  have amounts := congrArg (List.map fun pair => worth pair.2) same
  rw [List.map_map, List.map_map] at amounts
  rw [show (service.world.db.milestonesOf id).map (fun m => worth m.amount) =
    (reading.1.world.db.milestonesOf id).map (fun m => worth m.amount) from amounts]
  refine Table.sum_covered (f := fun m : Milestone => (some m.id, worth m.amount))
    (g := fun payment : Payment => (payment.milestoneId, worth payment.amount)) ?_ ?_
  · have distinct := (Db.milestonesOf_ids reading.1.world.db id).map (Option.some_injective _)
    rw [List.map_map] at distinct
    exact distinct
  · intro m member
    obtain ⟨inside, here⟩ := Db.mem_milestonesOf.mp member
    obtain ⟨payment, booked, contract, milestone, amount⟩ :=
      run_paid before started (Table.find_of_mem inside) (allPaid m member)
    refine ⟨payment, List.mem_filter.mpr ⟨?_, by rw [milestone]; rfl⟩, by rw [milestone, amount]⟩
    exact Db.mem_paymentsOf.mpr ⟨run_payment_kept since booked, contract.trans here⟩

/-- A request that has read an active contract has read its funding. -/
theorem run_bare (run : Runs.Run (Service.Step host config faults) start trace service)
    (started : start.Started) (read : seen id view ∈ told index trace) (active : view.status = .active) :
    view.escrowTxHash ≠ none := by
  obtain ⟨_, reading, _, _, before, _, found⟩ := told_reading run read
  obtain ⟨stored, _⟩ := Db.contractView_some found
  obtain ⟨row, hash, stored', carries⟩ := run_active before started stored active
  obtain rfl := Option.some.inj (stored.symm.trans stored')
  rw [show view.escrowTxHash = some hash from carries]
  nofun

/-- Whatever runs at the same time and whatever fails, the status of a contract has been earned on
chain: a disputed one was disputed there; a completed one was resolved there for the freelancer or
split, or all that was agreed for its milestones is on the books, and what it is converted to was
paid to the freelancer, no less than was agreed where no milestone was converted to less; a
cancelled one was refunded there, or resolved for the client, or was without a recorded funding
at some time in the run. -/
theorem statuses_earned (run : Runs.Run (Service.Step host config faults) start trace service)
    (started : start.Started) (deployed : Escrow.Reachable host start.world.chain.ledger) {row : Contract}
    (found : service.world.db.contracts.find id = some row) :
    (row.status = .disputed → ∃ admin, service.world.Accepted (.dispute id.symbol admin)) ∧
    (row.status = .completed →
      (∃ admin decision bps, decision ≠ .refundToClient ∧
        service.world.Accepted (.resolveDispute id.symbol admin decision bps)) ∨
      service.world.db.agreed id ≤ service.world.db.releasedOnBooks id ∧
        ∀ entry, service.world.chain.ledger.entry id.symbol = some entry →
          (service.world.db.convertedAgreed config.numbers id : Int) ≤
            Escrow.paidTo service.world.chain.ledger.receipts id.symbol entry.freelancer ∧
          ((∀ m ∈ service.world.db.milestonesOf id, m.amount ≤ m.released config.numbers) →
            (service.world.db.agreed id : Int) ≤
              Escrow.paidTo service.world.chain.ledger.receipts id.symbol entry.freelancer)) ∧
    (row.status = .cancelled →
      (∃ admin, service.world.Accepted (.refund id.symbol admin)) ∨
      (∃ admin bps, service.world.Accepted (.resolveDispute id.symbol admin .refundToClient bps)) ∨
      ∃ point ∈ trace, ∃ earlier, point.1.world.db.contracts.find id = some earlier ∧
        earlier.escrowTxHash = none) := by
  have tells : row.status ≠ .pending → ∃ index, Tells (told index trace) id row.status := by
    intro moved
    obtain ⟨earlier, point, rest, index, op, value, txHash, rfl, served, grounds, listed⟩ :=
      status_grounds run started found moved
    exact ⟨index, (grounds.tells listed).mono fun _ => told_more⟩
  refine ⟨fun disputed => ?_, fun completed => ?_, fun cancelled => ?_⟩
  · obtain ⟨index, told⟩ := tells (by simp [disputed])
    rw [disputed] at told
    rcases told with ⟨admin, hash, answered⟩ | ⟨view, read, active, bare⟩
    · exact ⟨admin, run_took run answered⟩
    · exact absurd bare (run_bare run started read active)
  · obtain ⟨index, told⟩ := tells (by simp [completed])
    rw [completed] at told
    rcases told with ⟨admin, decision, bps, hash, other, answered⟩ | ⟨view, read, allPaid⟩
    · exact .inl ⟨admin, decision, bps, other, run_took run answered⟩
    · refine .inr ⟨run_allPaid run started read allPaid fun amount => amount, fun entry stored => ?_⟩
      have booked : service.world.db.convertedAgreed config.numbers id ≤
          service.world.db.convertedOnBooks config.numbers id :=
        run_allPaid run started read allPaid fun amount => (config.numbers.release amount).getD 0
      have paid := (Int.ofNat_le.mpr booked).trans (run_convertedOnBooks run started deployed stored)
      refine ⟨paid, fun whole => ?_⟩
      have agreed : service.world.db.agreed id ≤ service.world.db.convertedAgreed config.numbers id :=
        List.sum_le_sum whole
      exact (Int.ofNat_le.mpr agreed).trans paid
  · obtain ⟨index, told⟩ := tells (by simp [cancelled])
    rw [cancelled] at told
    rcases told with ⟨admin, hash, answered⟩ | ⟨admin, bps, hash, answered⟩ | ⟨view, read, bare⟩
    · exact .inl ⟨admin, run_took run answered⟩
    · exact .inr (.inl ⟨admin, bps, run_took run answered⟩)
    · obtain ⟨_, reading, _, rfl, _, _, seen⟩ := told_reading run read
      obtain ⟨stored, _⟩ := Db.contractView_some seen
      exact .inr (.inr ⟨reading, List.mem_append_right _ List.mem_cons_self, _, stored, bare⟩)

/-! ### Disputes -/

/-- The backend calls in the name of the platform only. -/
theorem took_caller (run : Runs.Run (Service.Step host config faults) start trace service)
    (idle : start.running = []) (answered : Took (told index trace) call hash) :
    config.adminPublicKey = some call.caller := by
  obtain ⟨signer, member⟩ := answered
  obtain ⟨⟨⟨world, running⟩, occurrence⟩, inside, served⟩ := mem_told.mp member
  obtain ⟨earlier, rest, rfl⟩ := List.append_of_mem inside
  obtain ⟨before, after, step, _⟩ := run.cut rfl
  dsimp only at served step before
  subst served
  cases step with
  | served found answered =>
    have script := (run_follows before idle (fun endpoint => handle_scripted config endpoint) found).1
    obtain ⟨id, view, _, _, _, key, submission⟩ := script.submitted
    cases submission <;> exact key

theorem run_entry {key : Symbol} {entry : Escrow.EscrowEntry Address}
    (run : Runs.Run (Service.Step host config faults) start trace service)
    (found : start.world.chain.ledger.entry key = some entry) :
    ∃ next, service.world.chain.ledger.entry key = some next ∧ entry.SameTerms next := by
  refine run.invariant (I := fun service =>
    ∃ next, service.world.chain.ledger.entry key = some next ∧ entry.SameTerms next) ?_ ⟨entry, found, .refl entry⟩
  rintro service occurrence service' ⟨middle, stored, terms⟩ step
  rcases step_ledger step with still | ⟨action, stepped⟩
  · exact ⟨middle, still ▸ stored, terms⟩
  · obtain ⟨next, stored', kept, _⟩ := Escrow.step_status stepped stored
    exact ⟨next, stored', terms.trans kept⟩

/-- The platform is party to no escrow of a contract. -/
def Service.Apart (service : Service τ) (config : Config) : Prop :=
  ∀ admin, config.adminPublicKey = some admin → ∀ id row entry, service.world.db.contracts.find id = some row →
    service.world.chain.ledger.entry id.symbol = some entry → entry.client ≠ admin ∧ entry.freelancer ≠ admin

theorem Service.Apart.before (apart : service.Apart config)
    (run : Runs.Run (Service.Step host config faults) start trace service) : start.Apart config := by
  intro admin key id row entry there found
  obtain ⟨next, stored, terms⟩ := run_entry run found
  have planned : (planColumn id).value start.world.db = some _ := congrArg (Option.map _) there
  obtain ⟨row', there', _⟩ := Option.map_eq_some_iff.mp (Column.run_unwritten run (fun _ => rfl) planned)
  obtain ⟨client, freelancer⟩ := apart admin key id row' next there' stored
  exact ⟨terms.client ▸ client, terms.freelancer ▸ freelancer⟩

theorem run_undisputed {row : Contract} (run : Runs.Run (Service.Step host config faults) start trace service)
    (started : start.Started) (deployed : Escrow.Reachable host start.world.chain.ledger)
    (apart : service.Apart config) (found : service.world.db.contracts.find id = some row) :
    row.status ≠ .disputed := by
  intro disputed
  obtain ⟨earlier, point, rest, index, op, value, txHash, rfl, served, grounds, listed⟩ :=
    status_grounds run started found (by simp [disputed])
  rw [disputed] at listed
  rcases (grounds.tells listed).mono fun _ => told_more with ⟨admin, hash, answered⟩ | ⟨view, read, active, bare⟩
  · have key := took_caller run started.running answered
    obtain ⟨entry, stored, party⟩ :=
      Escrow.reachable_disputes (run_reachable run deployed) _ _ (run_took run answered)
    obtain ⟨client, freelancer⟩ := apart _ key id row entry found stored
    rcases party with rfl | rfl
    · exact client rfl
    · exact freelancer rfl
  · exact run_bare run started read active bare

/-- A resolution that returns has read a disputed contract. -/
def Resolves (endpoint : Endpoint) (told : List Exchange) (result : Except Failure Response) : Prop :=
  ∀ id role dto response, endpoint = .resolveDispute id role dto → result = .ok response →
    ∃ view, seen id view ∈ told ∧ view.status = .disputed

theorem handle_resolves (config : Config) (endpoint : Endpoint) :
    (handle config endpoint).Follows (fun _ _ => True) (Resolves endpoint) [] := by
  cases endpoint with
  | resolveDispute id role dto =>
    apply follows_map
    unfold resolveDispute
    have failed : ∀ (told : List Exchange) (e : Failure), Resolves (.resolveDispute id role dto) told (.error e) := by
      intro told e _ _ _ response _ returned
      cases returned
    refine follows_throwIf (fun _ => failed _ _) fun _ => ?_
    rw [getContractOrThrow, Process.bind_assoc]
    refine follows_perform trivial (fun _ => failed _ _) fun found => ?_
    refine follows_orThrow (fun _ => failed _ _) ?_
    rintro view rfl
    refine follows_throwIf (fun _ => failed _ _) fun disputed => ?_
    refine follows_ends fun later result => ?_
    rintro _ _ _ response ⟨⟩ _
    exact ⟨view, by simp [seen], not_not.mp disputed⟩
  | _ =>
    refine follows_ends fun later result => ?_
    intro _ _ _ response other
    cases other

/-- Disputes never come about: as long as the platform is not itself client or freelancer of an
escrow, no contract is ever disputed, whatever runs at the same time, and no resolution goes through. -/
theorem disputes_dead (run : Runs.Run (Service.Step host config faults) start trace service)
    (started : start.Started) (deployed : Escrow.Reachable host start.world.chain.ledger)
    (apart : service.Apart config) :
    (∀ id row, service.world.db.contracts.find id = some row → row.status ≠ .disputed) ∧
      ∀ (index : Nat) (contractId : Uuid) (role : UserRole) (dto : ResolveDisputeDto) (response : Response),
        service.running[index]? ≠ some (.resolveDispute contractId role dto, .done response) := by
  refine ⟨fun id row found => run_undisputed run started deployed apart found, ?_⟩
  intro index contractId role dto response returned
  have ends : Resolves _ (told index trace) (.ok response) :=
    run_follows run started.running (fun endpoint => handle_resolves config endpoint) returned
  obtain ⟨view, read, disputed⟩ := ends contractId role dto response rfl rfl
  obtain ⟨earlier, reading, between, _, before, since, found⟩ := told_reading run read
  exact run_undisputed before started deployed (apart.before since) (Db.contractView_some found).1 disputed

end Books

namespace Sample

/-- The confirmation, and after it a cancellation by an admin, up to its notifications. -/
def callOff : List (Move Endpoint) :=
  claim ++ .serve 1 :: .start (.cancel contractId clientId .admin) :: List.replicate 5 (.serve 2)

end Sample

theorem statuses_earned_sample : ∃ (service : Service (Escrow.Bank Address))
    (trace : List (Service (Escrow.Bank Address) × Occurrence)) (row : Contract),
    service.world.db.contracts.find Sample.contractId = some row ∧ row.status = .cancelled ∧
      ((∃ admin, service.world.Accepted (.refund Sample.contractId.symbol admin)) ∨
        (∃ admin bps, service.world.Accepted
          (.resolveDispute Sample.contractId.symbol admin .refundToClient bps)) ∨
        ∃ point ∈ trace, ∃ earlier, point.1.world.db.contracts.find Sample.contractId = some earlier ∧
          earlier.escrowTxHash = none) := by
  have happens : ∃ offered, Sample.plays Sample.idle Sample.offer = some offered ∧
      Sample.hash ∉ offered.2.world.chain.included ∧
      ∃ cancelled, Sample.plays (Sample.funded offered.2) Sample.callOff = some cancelled ∧
      cancelled.2.world.db.contractStatus Sample.contractId = some .cancelled := by
    decide
  obtain ⟨offered, first, fresh, cancelled, second, status⟩ := happens
  obtain ⟨row, stored, status⟩ := Option.map_eq_some_iff.mp status
  have run := Sample.run_around first second (.called _ _ fresh) rfl
  obtain ⟨_, _, earned⟩ := statuses_earned run ⟨rfl, rfl, rfl, rfl⟩ Sample.deployed stored
  exact ⟨cancelled.2, _, row, stored, status, earned status⟩

namespace Sample

/-- The confirmation, and after it a dispute raised by the client. -/
def objection : List (Move Endpoint) :=
  claim ++ [.serve 1, .start (.dispute contractId clientId), .serve 2, .serve 2]

end Sample

/-- The escrow contract refuses the dispute. -/
theorem disputes_dead_sample : ∃ (service : Service (Escrow.Bank Address)) (row : Contract),
    service.world.db.contracts.find Sample.contractId = some row ∧ row.status ≠ .disputed ∧
      ∃ entry, service.world.chain.ledger.entry Sample.contractId.symbol = some entry := by
  have happens : ∃ offered, Sample.plays Sample.idle Sample.offer = some offered ∧
      Sample.hash ∉ offered.2.world.chain.included ∧
      ∃ refused, Sample.plays (Sample.funded offered.2) Sample.objection = some refused ∧
      (refused.2.world.db.contracts.find Sample.contractId).isSome = true ∧
      (∀ row ∈ refused.2.world.db.contracts.rows, row.id = Sample.contractId) ∧
      (refused.2.world.chain.ledger.entry Sample.contractId.symbol).map (fun entry =>
        (entry.client, entry.freelancer)) = some ("client", "freelancer") := by
    decide
  obtain ⟨offered, first, fresh, refused, second, there, only, parties⟩ := happens
  obtain ⟨row, stored⟩ := Option.isSome_iff_exists.mp there
  obtain ⟨entry, funded, names⟩ := Option.map_eq_some_iff.mp parties
  have run := Sample.run_around first second (.called _ _ fresh) rfl
  have apart : refused.2.Apart Sample.config := by
    intro admin key id row entry' found found'
    obtain rfl : id = Sample.contractId := (Table.key_of_find found).symm.trans (only row (Table.mem_of_find found))
    obtain rfl := Option.some.inj (funded.symm.trans found')
    obtain ⟨client, freelancer⟩ := Prod.mk.inj names
    obtain rfl := Option.some.inj key
    rw [client, freelancer]
    decide
  obtain ⟨undisputed, _⟩ := disputes_dead run ⟨rfl, rfl, rfl, rfl⟩ Sample.deployed apart
  exact ⟨refused.2, row, stored, undisputed _ row stored, entry, funded⟩

end Stellance.Backend
