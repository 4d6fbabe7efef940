import Stellance.Backend.Database
import Stellance.Backend.Effects

/-! The effects of requests, seen from each contract: a completed request leaves every
dossier as it is, or takes one act on one of them. -/
namespace Stellance.Backend
open ContractsService
variable {τ : Type} {host : Escrow.Host Address τ} {config : Config} {w w₁ w₂ w' : World τ}
  {id key : Uuid} {hash : TxHash}

/-- What a database and a ledger say about one contract. -/
def dossierOf (db : Db) (ledger : Ledger τ) (id : Uuid) : Dossier where
  row := db.contracts.find id
  milestones := db.milestonesOf id
  payments := db.paymentsOf id
  entry := ledger.entry id.symbol
  paidOut := Escrow.paidOut ledger.receipts id.symbol

def World.dossier (w : World τ) (id : Uuid) : Dossier := dossierOf w.db w.chain.ledger id

/-- Payments carry hashes of the network and pay milestones of their own contract. -/
structure World.Linked (w : World τ) : Prop where
  noted : ∀ payment ∈ w.db.payments.rows, payment.stellarTxHash ∈ w.chain.included
  placed : ∀ payment ∈ w.db.payments.rows, ∀ milestoneId, payment.milestoneId = some milestoneId →
    ∃ m, w.db.milestones.find milestoneId = some m ∧ m.contractId = payment.contractId

/-! ### The network -/

section Network
variable {db : Db} {ledger : Ledger τ} {auths : Finset Address} {call : ChainCall}

theorem dossierOf_other (other : id.symbol ≠ call.contractId) :
    dossierOf db (ledger.act host (.call auths call)) id = dossierOf db ledger id := by
  have step : Escrow.Step host ledger (.call auths call) (ledger.act host (.call auths call)) := rfl
  have entry := Escrow.call_frame step other
  have calls := Escrow.call_frame_tokenCalls step other
  unfold dossierOf Escrow.paidOut
  rw [entry, calls]

theorem dossierOf_failed
    (fails : (Escrow.invoke host auths call ledger.state).1.outcome ≠ .ok) :
    dossierOf db (ledger.act host (.call auths call)) id = dossierOf db ledger id := by
  obtain ⟨entry, calls⟩ := Escrow.call_failed id.symbol fails
  unfold dossierOf Escrow.paidOut
  rw [entry, calls]

theorem dossierOf_moved (own : call.contractId = id.symbol)
    (succeeds : (Escrow.invoke host auths call ledger.state).1.outcome = .ok)
    (known : call.isFund = false) :
    ∃ entry paidOut, (∀ db, (dossierOf db ledger id).Moved call entry paidOut) ∧
      ∀ db, dossierOf db (ledger.act host (.call auths call)) id =
        { dossierOf db ledger id with entry, paidOut } := by
  obtain ⟨entry, payouts, next, event, found, moves, stored, paid⟩ := Escrow.call_moved succeeds known
  rw [own] at found stored paid
  refine ⟨some next, Escrow.paidOut ledger.receipts id.symbol + Escrow.payoutSum payouts,
    fun db => .intro found moves, fun db => ?_⟩
  unfold dossierOf
  rw [stored, Escrow.paidOut_paid paid]

end Network

/-- What a successful submission for a contract did to the dossiers. -/
structure Carried (w : World τ) (call : ChainCall) (id : Uuid) (hash : TxHash) (entry : Option Entry)
    (paidOut : Int) (w₁ : World τ) : Prop where
  moved : (w.dossier id).Moved call entry paidOut
  own : ∀ db, dossierOf db w₁.chain.ledger id = { dossierOf db w.chain.ledger id with entry, paidOut }
  others : ∀ key ≠ id, ∀ db, dossierOf db w₁.chain.ledger key = dossierOf db w.chain.ledger key
  db : w₁.db = w.db
  fresh : hash ∉ w.chain.included
  included : w₁.chain.included = w.chain.included ++ [hash]

theorem Submitted.carried {call : Address → ChainCall}
    (submitted : Submitted host config w call (.ok hash) w₁)
    (own : ∀ admin, (call admin).contractId = id.symbol)
    (known : ∀ admin, (call admin).isFund = false) :
    ∃ admin entry paidOut, Carried w (call admin) id hash entry paidOut w₁ := by
  cases submitted with
  | @applied signer _ key fresh succeeds =>
    obtain ⟨entry, paidOut, moved, same⟩ :=
      dossierOf_moved (own signer) succeeds (known signer)
    refine ⟨signer, entry, paidOut, moved w.db, same, ?_, rfl, fresh, rfl⟩
    intro key other db
    apply dossierOf_other
    rw [own]
    exact fun same => other (symbol_injective same)

/-- A new hash is not the hash of a payment. -/
theorem World.Linked.unused (linked : w.Linked) (fresh : hash ∉ w.chain.included) :
    ∀ payment ∈ w.db.payments.rows, payment.stellarTxHash ≠ hash := by
  rintro payment member rfl
  exact fresh (linked.noted payment member)

/-- One act on the dossier of one contract; the others stay. -/
def Touches (numbers : Numbers) (act : Dossier.Act) (id : Uuid) (w w' : World τ) : Prop :=
  (∀ key ≠ id, w'.dossier key = w.dossier key) ∧
    ((w.dossier id).Books numbers → (w.dossier id).Step numbers act (w'.dossier id))

theorem dossierOf_row {db db' : Db} (ledger : Ledger τ)
    (contracts : db'.contracts.find key = db.contracts.find key)
    (milestones : db'.milestones = db.milestones) (payments : db'.payments = db.payments) :
    dossierOf db' ledger key = dossierOf db ledger key := by
  unfold dossierOf Db.milestonesOf Db.paymentsOf
  rw [contracts, milestones, payments]

/-- The row of a contract gets a status, with or without a hash. -/
theorem dossierOf_statusUpdate {db db' : Db} {status : ContractStatus} {hash : Option TxHash}
    {rest : List Statement} (ledger : Ledger τ) (jobs : Db.JobUpdates rest)
    (executed : db.executeAll (.contractUpdate id status hash :: rest) = some db') :
    (∀ key ≠ id, dossierOf db' ledger key = dossierOf db ledger key) ∧
      ∃ row, db.contracts.find id = some row ∧ dossierOf db' ledger id =
        { dossierOf db ledger id with row := some (row.updated status hash) } := by
  obtain ⟨row, found, stored, others, milestones, payments⟩ := Db.statusUpdate_some jobs executed
  refine ⟨fun key other => dossierOf_row ledger (others key other) milestones payments, row, found, ?_⟩
  unfold dossierOf Db.milestonesOf Db.paymentsOf
  rw [stored, milestones, payments]

theorem dossierOf_settlement {db db' : Db} {status : ContractStatus} {amount : Nat}
    {rest : List Statement} (ledger : Ledger τ) (jobs : Db.JobUpdates rest)
    (executed : db.executeAll (.paymentCreate ⟨id, none, amount, hash⟩ ::
      .contractUpdate id status none :: rest) = some db') :
    (∀ key ≠ id, dossierOf db' ledger key = dossierOf db ledger key) ∧
      ∃ row, db.contracts.find id = some row ∧ dossierOf db' ledger id =
        { dossierOf db ledger id with
          row := some (row.updated status none)
          payments := db.paymentsOf id ++ [⟨id, none, amount, hash⟩] } := by
  obtain ⟨row, found, stored, others, milestones, rows, payments⟩ := Db.settlement_some jobs executed
  refine ⟨fun key other => ?_, row, found, ?_⟩
  · unfold dossierOf Db.milestonesOf
    rw [others key other, milestones, payments, if_neg (Ne.symm other), List.append_nil]
  · unfold dossierOf Db.milestonesOf
    rw [stored, milestones, payments, if_pos rfl]

/-! ### The endpoints -/

section Endpoints
variable {numbers : Numbers} {db : Db} {view : ContractView} {call : Address → ChainCall}

theorem noJobs : Db.JobUpdates [] :=
  fun _ member => absurd member List.not_mem_nil

theorem oneJob (id : Uuid) (status : JobStatus) : Db.JobUpdates [.jobUpdate id status] := by
  intro statement member
  obtain rfl := List.mem_singleton.mp member
  exact ⟨id, status, rfl⟩

theorem Commits.wrote {statements : List Statement} (commits : Commits statements w w')
    (possible : ∃ db, w.db.executeAll statements = some db) :
    ∃ db, w.db.executeAll statements = some db ∧ w' = w.wrote db := by
  cases commits with
  | committed executed => exact ⟨_, executed, rfl⟩
  | refused impossible =>
    obtain ⟨db, executed⟩ := possible
    rw [impossible] at executed
    contradiction

/-- The rows a new contract brings. -/
def planned (id : Uuid) (milestoneIds : List Uuid) (dto : CreateContractDto) (clientId : Uuid) :
    List Milestone :=
  (milestoneIds.zip (dto.newContract clientId).milestones).map fun (milestoneId, title, amount) =>
    ⟨milestoneId, id, title, amount, .pending⟩

section Planned
variable {milestoneIds : List Uuid} {dto : CreateContractDto} {clientId : Uuid}

theorem planned_fresh {m : Milestone} (member : m ∈ planned id milestoneIds dto clientId) :
    0 < m.amount ∧ m.status = .pending := by
  obtain ⟨⟨milestoneId, title, amount⟩, zipped, rfl⟩ := List.mem_map.mp member
  have asked := (List.of_mem_zip zipped).2
  obtain ⟨input, _, same⟩ := List.mem_map.mp asked
  cases same
  exact ⟨input.positive, rfl⟩

theorem planned_amounts
    (sameLength : milestoneIds.length = (dto.newContract clientId).milestones.length) :
    (planned id milestoneIds dto clientId).map Milestone.amount = dto.amounts := by
  have amounts : (planned id milestoneIds dto clientId).map Milestone.amount =
      ((milestoneIds.zip (dto.newContract clientId).milestones).map Prod.snd).map Prod.snd := by
    simp [planned]
  rw [amounts, List.map_snd_zip (le_of_eq sameLength.symm)]
  simp [CreateContractDto.newContract, CreateContractDto.amounts, Function.comp_def]

theorem planned_ne_nil
    (sameLength : milestoneIds.length = (dto.newContract clientId).milestones.length) :
    planned id milestoneIds dto clientId ≠ [] := by
  intro empty
  have none : (planned id milestoneIds dto clientId).length = 0 := by rw [empty]; rfl
  simp only [planned, List.length_map, List.length_zip, sameLength, min_self] at none
  exact dto.someMilestone (by simpa [CreateContractDto.newContract] using none)

end Planned

theorem created_touches {milestoneIds : List Uuid} {dto : CreateContractDto} {clientId : Uuid}
    (created : w.db.create id milestoneIds (dto.newContract clientId) = some db) :
    Touches numbers .created id w (w.wrote db) := by
  obtain ⟨sameLength, absent, stored, others, payments, _, milestones⟩ := Db.create_some created
  constructor
  · intro key other
    unfold World.dossier dossierOf World.wrote Db.paymentsOf
    rw [others key other, payments, milestones, if_neg other, List.append_nil]
  · intro books
    obtain ⟨none, _, _⟩ := books.unknown absent
    have rows : db.milestonesOf id = planned id milestoneIds dto clientId := by
      rw [milestones, if_pos rfl, show w.db.milestonesOf id = [] from none]
      rfl
    have after : (w.wrote db).dossier id = { w.dossier id with
        row := some ⟨id, (dto.newContract clientId).jobId, (dto.newContract clientId).freelancerId,
          (dto.newContract clientId).clientId, .pending, Option.none⟩
        milestones := planned id milestoneIds dto clientId } := by
      unfold World.dossier dossierOf World.wrote Db.paymentsOf
      rw [stored, payments, rows]
    rw [after]
    refine .created absent rfl rfl (planned_ne_nil sameLength) ?_ fun m => planned_fresh
    rw [← rows]
    exact Db.milestonesOf_ids db id

theorem confirmed_touches {txHash : TxHash} (found : w.db.contractView id = some view)
    (unconfirmed : view.escrowTxHash = none) (status : view.status = .pending ∨ view.status = .active)
    (updated : w.db.execute (.contractUpdate id .active (some txHash)) = some db) :
    Touches numbers .confirmed id w (w.wrote db) := by
  obtain ⟨others, row, stored, after⟩ := dossierOf_statusUpdate w.chain.ledger noJobs
    ((executeAll_single ..).trans updated)
  obtain ⟨viewed, _⟩ := Db.contractView_some found
  obtain rfl := Option.some.inj (stored.symm.trans viewed)
  refine ⟨others, fun _ => ?_⟩
  rw [show (w.wrote db).dossier id = _ from after]
  exact .confirmed viewed unconfirmed status

theorem submitted_touches {milestoneId : Uuid} {milestone : Milestone}
    (found : w.db.contractView id = some view) (active : view.status = .active)
    (listed : view.milestones.find? (·.id = milestoneId) = some milestone)
    (pending : milestone.status = .pending)
    (updated : w.db.execute (.milestoneUpdate milestoneId .inReview) = some db) :
    Touches numbers .submitted id w (w.wrote db) := by
  obtain ⟨contracts, payments, _, _, _, marked⟩ := Db.milestoneUpdate_some updated
  obtain ⟨member, rfl⟩ := Db.listed found listed
  obtain ⟨inside, place⟩ := Db.mem_milestonesOf.mp member
  constructor
  · intro key other
    unfold World.dossier dossierOf World.wrote Db.paymentsOf
    rw [contracts, payments, marked,
      Db.mark_other (Table.find_of_mem inside) (place ▸ Ne.symm other)]
  · intro _
    have after : (w.wrote db).dossier id = { w.dossier id with
        milestones := Milestone.mark (w.db.milestonesOf id) milestone.id .inReview } := by
      unfold World.dossier dossierOf World.wrote Db.paymentsOf
      rw [contracts, payments, marked]
    rw [after]
    exact .submitted (Db.contractView_some found).1 active member pending

theorem dossierOf_payMilestone {milestone : Milestone} (ledger : Ledger τ)
    (member : milestone ∈ w.db.milestonesOf id)
    (executed : w.db.executeAll (payMilestone id milestone hash) = some db) :
    (∀ key ≠ id, dossierOf db ledger key = dossierOf w.db ledger key) ∧
      dossierOf db ledger id = { dossierOf w.db ledger id with
        milestones := Milestone.mark (w.db.milestonesOf id) milestone.id .paid
        payments := w.db.paymentsOf id ++ [⟨id, some milestone.id, milestone.amount, hash⟩] } := by
  obtain ⟨inside, place⟩ := Db.mem_milestonesOf.mp member
  obtain ⟨contracts, _, _, _, _, marked, payments⟩ := Db.payMilestone_some executed
  constructor
  · intro key other
    unfold dossierOf
    rw [contracts, marked, payments, if_neg (Ne.symm other), List.append_nil,
      Db.mark_other (Table.find_of_mem inside) (place ▸ Ne.symm other)]
  · unfold dossierOf
    rw [contracts, marked, payments, if_pos rfl]

/-- No payment is recorded for a milestone under review. -/
theorem World.Linked.unpaid {milestone : Milestone} (linked : w.Linked)
    (books : (w.dossier id).Books numbers) (member : milestone ∈ w.db.milestonesOf id)
    (unpaid : milestone.status ≠ .paid) :
    ∀ payment ∈ w.db.payments.rows, payment.milestoneId ≠ some milestone.id := by
  intro payment inside same
  obtain ⟨m, found, place⟩ := linked.placed payment inside milestone.id same
  obtain ⟨listed, here⟩ := Db.mem_milestonesOf.mp member
  obtain rfl := Option.some.inj (found.symm.trans (Table.find_of_mem listed))
  have own : payment ∈ w.db.paymentsOf id := Db.mem_paymentsOf.mpr ⟨inside, place.symm.trans here⟩
  exact (Dossier.receipted_unpaid unpaid).mp (books.receipted m member) payment own same

/-- A milestone as paid, with a payment of its own. -/
def World.paidDossier (w : World τ) (id : Uuid) (row : Contract) (milestone : Milestone) (hash : TxHash)
    (entry : Option Entry) (paidOut : Int) : Dossier :=
  ⟨some row, Milestone.mark (w.db.milestonesOf id) milestone.id .paid,
    w.db.paymentsOf id ++ [⟨id, some milestone.id, milestone.amount, hash⟩], entry, paidOut⟩

/-- What the commit of a released milestone leaves. -/
structure Paid (w : World τ) (ledger : Ledger τ) (id : Uuid) (row : Contract) (milestone : Milestone)
    (hash : TxHash) (entry : Option Entry) (paidOut : Int) (db : Db) : Prop where
  others : ∀ key ≠ id, dossierOf db ledger key = w.dossier key
  own : dossierOf db ledger id = w.paidDossier id row milestone hash entry paidOut
  viewed : ∃ after, db.contractView id = some after ∧
    after.milestones = Milestone.mark (w.db.milestonesOf id) milestone.id .paid

theorem Carried.paid {milestone : Milestone} {call : ChainCall} {entry : Option Entry} {paidOut : Int}
    (carried : Carried w call id hash entry paidOut w₁) (found : w.db.contractView id = some view)
    (member : milestone ∈ w.db.milestonesOf id)
    (executed : w₁.db.executeAll (payMilestone id milestone hash) = some db) :
    Paid w w₁.chain.ledger id view.toContract milestone hash entry paidOut db := by
  rw [carried.db] at executed
  obtain ⟨others, own⟩ := dossierOf_payMilestone w₁.chain.ledger member executed
  obtain ⟨contracts, users, jobs, _, _, marked, _⟩ := Db.payMilestone_some executed
  refine ⟨?_, ?_, ?_⟩
  · intro key other
    rw [others key other]
    exact carried.others key other w.db
  · rw [own, carried.own, World.paidDossier, ← (Db.contractView_some found).1]
    rfl
  · obtain ⟨after, found'⟩ := Db.contractView_kept found contracts jobs users
    exact ⟨after, found', (Db.contractView_some found').2.1.trans (marked id)⟩

/-- What is recorded of a release, and the completion with the last one. -/
theorem recorded_touches {milestone : Milestone} {admin : Address} {stroops : Nat} {amount : Escrow.I128}
    {entry : Option Entry} {paidOut : Int} (linked : w.Linked)
    (found : w.db.contractView id = some view) (active : view.status = .active)
    (member : milestone ∈ w.db.milestonesOf id) (inReview : milestone.status = .inReview)
    (converted : numbers.release milestone.amount = some stroops) (same : amount.val = stroops)
    (carried : Carried w (.releaseMilestone id.symbol admin amount) id hash entry paidOut w₁)
    (recorded : Recorded id milestone hash w₁ w₂) : Touches numbers .approved id w w₂ := by
  have stored := (Db.contractView_some found).1
  have step : ∀ row, row = Dossier.afterPayment view.toContract
        (Milestone.mark (w.db.milestonesOf id) milestone.id .paid) →
      (w.dossier id).Step numbers .approved (w.paidDossier id row milestone hash entry paidOut) := by
    rintro row rfl
    have taken : (w.dossier id).Step numbers .approved
        ⟨_, _, w.db.paymentsOf id ++ [⟨view.id, some milestone.id, milestone.amount, hash⟩], _, _⟩ :=
      .approved stored active member inReview converted same carried.moved
    rw [show view.id = id from Table.key_of_find stored] at taken
    exact taken
  cases recorded with
  | refused impossible =>
    refine ⟨fun key other => ?_, fun books => ?_⟩
    · rw [World.dossier, carried.db]
      exact carried.others key other w.db
    · have unpaid : milestone.status ≠ .paid := by
        rw [inReview]
        decide
      obtain ⟨db, executed⟩ := Db.payMilestone_possible stored
        (Table.find_of_mem (Db.mem_milestonesOf.mp member).1) (linked.unpaid books member unpaid)
        (linked.unused carried.fresh)
      rw [carried.db, executed] at impossible
      contradiction
  | missing executed missing =>
    obtain ⟨after, found', _⟩ := (carried.paid found member executed).viewed
    rw [missing] at found'
    contradiction
  | @unpaid db after executed found' unpaid =>
    obtain ⟨others, own, _, same, marked⟩ := carried.paid found member executed
    obtain rfl := Option.some.inj (same.symm.trans found')
    refine ⟨others, fun _ => ?_⟩
    rw [show (w₁.wrote db).dossier id = _ from own]
    apply step
    rw [Dossier.afterPayment, if_neg (marked ▸ unpaid)]
  | @completed db after _ executed found' allPaid commits =>
    obtain ⟨others, own, _, same, marked⟩ := carried.paid found member executed
    obtain rfl := Option.some.inj (same.symm.trans found')
    have row := congrArg Dossier.row own
    obtain ⟨db', executed', rfl⟩ := commits.wrote
      (Db.statusUpdate_possible .completed row fun between _ => ⟨between, rfl⟩)
    obtain ⟨others', row', stored', after'⟩ :=
      dossierOf_statusUpdate w₁.chain.ledger noJobs executed'
    obtain rfl := Option.some.inj (stored'.symm.trans row)
    refine ⟨fun key other => (others' key other).trans (others key other), fun _ => ?_⟩
    rw [show ((w₁.wrote db).wrote db').dossier id = _ from after',
      show dossierOf (w₁.wrote db).db w₁.chain.ledger id = _ from own]
    apply step
    rw [Dossier.afterPayment, if_pos (marked ▸ allPaid)]

/-- A call that nothing is recorded of. -/
theorem Carried.unrecorded {act : Dossier.Act} {call : ChainCall} {entry : Option Entry} {paidOut : Int}
    (carried : Carried w call id hash entry paidOut w₁)
    (step : (w.dossier id).Step numbers act { w.dossier id with entry, paidOut }) : Touches numbers act id w w₁ := by
  have own : w₁.dossier id = { w.dossier id with entry, paidOut } := by
    rw [World.dossier, carried.db]
    exact carried.own w.db
  refine ⟨fun key other => ?_, fun _ => own ▸ step⟩
  rw [World.dossier, carried.db]
  exact carried.others key other w.db

theorem disputed_touches {hash : Option TxHash} (found : w.db.contractView id = some view)
    (active : view.status = .active)
    (frozen : SubmittedIf host config w view (.dispute id.symbol) hash w₁)
    (commits : Commits [.contractUpdate id .disputed none] w₁ w₂) : Touches numbers .disputed id w w₂ := by
  have stored := (Db.contractView_some found).1
  obtain ⟨db, executed, rfl⟩ := commits.wrote
    (Db.statusUpdate_possible .disputed (frozen.db ▸ stored) fun between _ => ⟨between, rfl⟩)
  obtain ⟨others, row, stored', after⟩ := dossierOf_statusUpdate w₁.chain.ledger noJobs executed
  rw [frozen.db] at others stored' after
  obtain rfl := Option.some.inj (stored'.symm.trans stored)
  cases frozen with
  | unconfirmed unconfirmed =>
    refine ⟨others, fun books => ?_⟩
    -- an active contract carries a hash
    rcases books.unconfirmed _ stored unconfirmed with pending | cancelled
    · rw [active] at pending
      contradiction
    · rw [active] at cancelled
      contradiction
  | applied confirmed submitted =>
    obtain ⟨admin, entry, paidOut, carried⟩ := submitted.carried (fun _ => rfl) fun _ => rfl
    refine ⟨fun key other => (others key other).trans (carried.others key other w.db), fun _ => ?_⟩
    rw [show (w₁.wrote db).dossier id = _ from after, carried.own]
    exact .disputed stored active carried.moved

theorem resolved_touches {dto : ResolveDisputeDto} {decision : Escrow.DisputeDecision} {bps : UInt32}
    (linked : w.Linked) (found : w.db.contractView id = some view) (disputed : view.status = .disputed)
    (decided : decisionMap dto.decision = some (some decision))
    (submitted : Submitted host config w
      (fun admin => .resolveDispute id.symbol admin decision bps) (.ok hash) w₁)
    (settles : Settles (w.db.remaining numbers id) (fun amount => [.paymentCreate ⟨id, none, amount, hash⟩,
      .contractUpdate id (finalStatus dto.decision) none]) w₁ w₂) : Touches numbers .resolved id w w₂ := by
  have stored := (Db.contractView_some found).1
  have inRow : view.id = id := Table.key_of_find stored
  obtain ⟨admin, entry, paidOut, carried⟩ := submitted.carried (fun _ => rfl) fun _ => rfl
  have fresh := linked.unused carried.fresh
  cases settles with
  | overflow tooLarge => exact carried.unrecorded (.unresolved stored disputed tooLarge carried.moved)
  | @held amount _ remains commits =>
    obtain ⟨db, executed, rfl⟩ := commits.wrote (Db.settlement_possible (finalStatus dto.decision)
      (carried.db ▸ stored) (carried.db ▸ fresh) fun between _ => ⟨between, rfl⟩)
    obtain ⟨others, row, stored', after⟩ := dossierOf_settlement w₁.chain.ledger noJobs executed
    rw [carried.db] at others stored' after
    obtain rfl := Option.some.inj (stored'.symm.trans stored)
    refine ⟨fun key other => (others key other).trans (carried.others key other w.db), fun _ => ?_⟩
    rw [show (w₁.wrote db).dossier id = _ from after, carried.own]
    have taken : (w.dossier id).Step numbers .resolved
        ⟨_, _, w.db.paymentsOf id ++ [⟨view.id, none, amount, hash⟩], _, _⟩ :=
      .resolved stored disputed decided remains carried.moved
    rw [inRow] at taken
    exact taken

theorem cancelled_touches {hash : Option TxHash} (linked : w.Linked)
    (found : w.db.contractView id = some view)
    (live : view.status ≠ .completed ∧ view.status ≠ .cancelled)
    (refunded : SubmittedIf host config w view (.refund id.symbol) hash w₁)
    (settles : Settles (if hash.isSome then w.db.remaining numbers id else some 0)
      (fun amount => cancelStatements id view.job.id amount hash) w₁ w₂) :
    Touches numbers .cancelled id w w₂ := by
  have stored := (Db.contractView_some found).1
  have inRow : view.id = id := Table.key_of_find stored
  have job : w.db.jobs.find view.job.id = some view.job := by
    have referred := (Db.contractView_some found).2.2.1
    rw [Table.key_of_find referred]
    exact referred
  have reopened : ∀ between : Db, between.jobs = w.db.jobs →
      ∃ db, between.executeAll [.jobUpdate view.job.id .open] = some db := by
    intro between same
    obtain ⟨db, executed⟩ := Db.jobUpdate_possible .open (same ▸ job)
    exact ⟨db, (executeAll_single ..).trans executed⟩
  cases refunded with
  | unconfirmed unconfirmed =>
    cases settles with
    | overflow contra => contradiction
    | held _ commits =>
      obtain ⟨db, executed, rfl⟩ := commits.wrote (Db.statusUpdate_possible .cancelled stored reopened)
      obtain ⟨others, row, stored', after⟩ := dossierOf_statusUpdate w.chain.ledger (oneJob _ _) executed
      obtain rfl := Option.some.inj (stored'.symm.trans stored)
      refine ⟨others, fun _ => ?_⟩
      rw [show (w.wrote db).dossier id = _ from after]
      exact .cancelled stored live unconfirmed
  | @applied txHash _ confirmed submitted =>
    obtain ⟨admin, entry, paidOut, carried⟩ := submitted.carried (fun _ => rfl) fun _ => rfl
    have fresh := linked.unused carried.fresh
    cases settles with
    | overflow tooLarge => exact carried.unrecorded (.unrefunded stored live tooLarge carried.moved)
    | @held amount _ remains commits =>
      obtain ⟨db, executed, rfl⟩ := commits.wrote (Db.settlement_possible .cancelled
        (carried.db ▸ stored) (carried.db ▸ fresh) (carried.db ▸ reopened))
      obtain ⟨others, row, stored', after⟩ := dossierOf_settlement w₁.chain.ledger (oneJob _ _) executed
      rw [carried.db] at others stored' after
      obtain rfl := Option.some.inj (stored'.symm.trans stored)
      refine ⟨fun key other => (others key other).trans (carried.others key other w.db), fun _ => ?_⟩
      rw [show (w₁.wrote db).dossier id = _ from after, carried.own]
      have taken : (w.dossier id).Step numbers .cancelled
          ⟨_, _, w.db.paymentsOf id ++ [⟨view.id, none, amount, txHash⟩], _, _⟩ :=
        .refunded stored live remains carried.moved
      rw [inRow] at taken
      exact taken

end Endpoints

/-! ### All of them -/

/-- The act an endpoint stands for. -/
def ContractsService.Endpoint.act : Endpoint → Dossier.Act
  | .create .. => .created
  | .confirmFund .. => .confirmed
  | .submitMilestone .. => .submitted
  | .approveMilestone .. => .approved
  | .dispute .. => .disputed
  | .resolveDispute .. => .resolved
  | .cancel .. => .cancelled

variable {endpoint : Endpoint} {result : Except Failure Response}

/-- A completed request leaves all dossiers, or takes its act on one. -/
theorem effect_touches (linked : w.Linked) (effect : Effect host config w endpoint result w') :
    (∀ key, w'.dossier key = w.dossier key) ∨ ∃ id, Touches config.numbers endpoint.act id w w' := by
  cases effect with
  | nothing => exact .inl fun _ => rfl
  | failed endpoint error fresh fails => exact .inl fun _ => dossierOf_failed fails
  | created held created issued => exact .inr ⟨_, created_touches created⟩
  | confirmed found caller unconfirmed status included updated =>
    exact .inr ⟨_, confirmed_touches found unconfirmed status updated⟩
  | submitted found caller active listed pending updated =>
    exact .inr ⟨_, submitted_touches found active listed pending updated⟩
  | approved found caller active listed inReview converted same released recorded =>
    obtain ⟨admin, entry, paidOut, carried⟩ := released.carried (fun _ => rfl) fun _ => rfl
    exact .inr ⟨_, recorded_touches linked found active (Db.listed found listed).1 inReview converted same
      carried recorded⟩
  | disputed found active frozen commits => exact .inr ⟨_, disputed_touches found active frozen commits⟩
  | resolved found disputed decided submitted settles =>
    exact .inr ⟨_, resolved_touches linked found disputed decided submitted settles⟩
  | cancelled found allowed live refunded settles =>
    exact .inr ⟨_, cancelled_touches linked found live refunded settles⟩

/-- Rows and hashes are only added, and what is added is linked. -/
theorem World.Linked.grow (linked : w.Linked) (places : Db.SamePlaces w.db w'.db)
    (included : ∀ hash ∈ w.chain.included, hash ∈ w'.chain.included)
    (payments : ∀ payment ∈ w'.db.payments.rows, payment ∈ w.db.payments.rows ∨
      payment.stellarTxHash ∈ w'.chain.included ∧
        ∀ milestoneId, payment.milestoneId = some milestoneId →
          ∃ m, w'.db.milestones.find milestoneId = some m ∧ m.contractId = payment.contractId) :
    w'.Linked := by
  constructor
  · intro payment member
    rcases payments payment member with earlier | ⟨noted, _⟩
    · exact included _ (linked.noted payment earlier)
    · exact noted
  · intro payment member milestoneId same
    rcases payments payment member with earlier | ⟨_, placed⟩
    · obtain ⟨m, found, place⟩ := linked.placed payment earlier milestoneId same
      obtain ⟨m', found', place', _⟩ := places m milestoneId found
      exact ⟨m', found', place'.trans place⟩
    · exact placed milestoneId same

section Linked
variable {statements : List Statement} {db : Db} {status : ContractStatus} {rest : List Statement}

/-- The network moved, and the payments with it stay linked. -/
theorem World.Linked.sent (linked : w.Linked) (same : w₁.db = w.db)
    (included : ∀ hash ∈ w.chain.included, hash ∈ w₁.chain.included) : w₁.Linked := by
  refine linked.grow (.of_eq (by rw [same])) included fun payment member => .inl ?_
  rw [← same]
  exact member

theorem Submitted.linked {call : Address → ChainCall} (linked : w.Linked)
    (submitted : Submitted host config w call (.ok hash) w₁) :
    w₁.Linked ∧ hash ∈ w₁.chain.included := by
  cases submitted with
  | applied =>
    exact ⟨linked.sent rfl fun _ => List.mem_append_left _, List.mem_append_right _ List.mem_cons_self⟩

theorem SubmittedIf.linked {view : ContractView} {call : Address → ChainCall} {hash : Option TxHash}
    (linked : w.Linked) (submitted : SubmittedIf host config w view call hash w₁) : w₁.Linked := by
  cases submitted with
  | unconfirmed => exact linked
  | applied confirmed submitted => exact (submitted.linked linked).1

theorem statusUpdate_linked {hash : Option TxHash} (linked : w.Linked) (jobs : Db.JobUpdates rest)
    (executed : w.db.executeAll (.contractUpdate id status hash :: rest) = some db) :
    (w.wrote db).Linked := by
  obtain ⟨_, _, _, _, milestones, payments⟩ := Db.statusUpdate_some jobs executed
  refine linked.grow (.of_eq milestones) (fun _ member => member) fun payment member => .inl ?_
  rw [← payments]
  exact member

theorem settlement_linked {amount : Nat} (linked : w.Linked) (jobs : Db.JobUpdates rest)
    (noted : hash ∈ w.chain.included)
    (executed : w.db.executeAll (.paymentCreate ⟨id, none, amount, hash⟩ ::
      .contractUpdate id status none :: rest) = some db) : (w.wrote db).Linked := by
  obtain ⟨_, _, _, _, milestones, rows, _⟩ := Db.settlement_some jobs executed
  refine linked.grow (.of_eq milestones) (fun _ member => member) fun payment member => ?_
  rw [World.wrote, rows] at member
  rcases List.mem_append.mp member with earlier | last
  · exact .inl earlier
  · obtain rfl := List.mem_singleton.mp last
    exact .inr ⟨noted, fun _ contra => nomatch contra⟩

theorem payMilestone_linked {milestone : Milestone} (linked : w.Linked)
    (member : milestone ∈ w.db.milestonesOf id) (noted : hash ∈ w.chain.included)
    (executed : w.db.executeAll (payMilestone id milestone hash) = some db) : (w.wrote db).Linked := by
  obtain ⟨_, _, _, places, rows, _, _⟩ := Db.payMilestone_some executed
  refine linked.grow places (fun _ member => member) fun payment inside => ?_
  rw [World.wrote, rows] at inside
  rcases List.mem_append.mp inside with earlier | last
  · exact .inl earlier
  · obtain rfl := List.mem_singleton.mp last
    refine .inr ⟨noted, ?_⟩
    rintro _ ⟨⟩
    obtain ⟨stored, place⟩ := Db.mem_milestonesOf.mp member
    obtain ⟨m, found, same, _⟩ := places _ _ (Table.find_of_mem stored)
    exact ⟨m, found, same.trans place⟩

theorem recorded_linked {milestone : Milestone} (linked : w.Linked)
    (member : milestone ∈ w.db.milestonesOf id) (noted : hash ∈ w.chain.included)
    (recorded : Recorded id milestone hash w w') : w'.Linked := by
  cases recorded with
  | refused => exact linked
  | missing paid => exact payMilestone_linked linked member noted paid
  | unpaid paid => exact payMilestone_linked linked member noted paid
  | completed paid found allPaid commits =>
    have between := payMilestone_linked linked member noted paid
    cases commits with
    | committed executed => exact statusUpdate_linked between noJobs executed
    | refused => exact between

theorem effect_linked (linked : w.Linked) (effect : Effect host config w endpoint result w') :
    w'.Linked := by
  cases effect with
  | nothing => exact linked
  | failed => exact linked.sent rfl fun _ => List.mem_append_left _
  | created held created issued =>
    obtain ⟨_, _, _, _, payments, places, _⟩ := Db.create_some created
    refine linked.grow places (fun _ member => member) fun payment member => .inl ?_
    rw [← payments]
    exact member
  | confirmed found caller unconfirmed status included updated =>
    exact statusUpdate_linked linked noJobs ((executeAll_single ..).trans updated)
  | submitted found caller active listed pending updated =>
    obtain ⟨_, payments, _, _, places, _⟩ := Db.milestoneUpdate_some updated
    refine linked.grow places (fun _ member => member) fun payment member => .inl ?_
    rw [← payments]
    exact member
  | approved found caller active listed inReview converted same released recorded =>
    obtain ⟨linked', noted⟩ := released.linked linked
    have member := (Db.listed found listed).1
    rw [← released.db] at member
    exact recorded_linked linked' member noted recorded
  | disputed found active frozen commits =>
    have linked' := frozen.linked linked
    cases commits with
    | committed executed => exact statusUpdate_linked linked' noJobs executed
    | refused => exact linked'
  | resolved found disputed decided submitted settles =>
    obtain ⟨linked', noted⟩ := submitted.linked linked
    cases settles with
    | overflow => exact linked'
    | held remains commits =>
      cases commits with
      | committed executed => exact settlement_linked linked' noJobs noted executed
      | refused => exact linked'
  | cancelled found allowed live refunded settles =>
    have linked₁ := refunded.linked linked
    cases settles with
    | overflow => exact linked₁
    | held remains commits =>
      cases commits with
      | refused => exact linked₁
      | committed executed =>
        cases refunded with
        | unconfirmed unconfirmed => exact statusUpdate_linked linked (oneJob _ _) executed
        | applied confirmed submitted =>
          obtain ⟨linked', noted⟩ := submitted.linked linked
          exact settlement_linked linked' (oneJob _ _) noted executed

end Linked

end Stellance.Backend
