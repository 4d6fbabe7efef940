import Stellance.Backend.Readings
import Stellance.Backend.Funding

/-! Work and money only under a recorded funding. The status of a contract and the hash
of its funding are tied together by one update alone, yet no request, on whatever old
reading it acts, leaves a contract at work, a milestone begun or a payment made without
a hash that was found on the network. -/
namespace Stellance.Backend
open ContractsService Process
variable {τ : Type} {host : Escrow.Host Address τ} {config : Config} {faults : Prop}
  {service service' start : Service τ} {occurrence : Occurrence} {id key : Uuid} {index : Nat}
  {trace : List (Service τ × Occurrence)} {endpoint : Endpoint} {view : ContractView} {db db' : Db}
  {accepted accepted' : TxHash → Prop} {statement : Statement}

/-! ### The database -/

namespace Db

/-- The contract has a funding transaction on record. -/
def Funded (db : Db) (id : Uuid) : Prop :=
  ∃ row hash, db.contracts.find id = some row ∧ row.escrowTxHash = some hash

/-- What the database says of funded work, where the hashes were accepted. -/
structure Vouched (db : Db) (accepted : TxHash → Prop) : Prop where
  pending : ∀ id row, db.contracts.find id = some row → row.status = .pending → row.escrowTxHash = none
  confirmed : ∀ id row, db.contracts.find id = some row →
    row.status = .active ∨ row.status = .disputed ∨ row.status = .completed → db.Funded id
  recorded : ∀ id row hash, db.contracts.find id = some row → row.escrowTxHash = some hash → accepted hash
  begun : ∀ id m, db.milestones.find id = some m → m.status ≠ .pending → db.Funded m.contractId
  paid : ∀ payment ∈ db.payments.rows, db.Funded payment.contractId
  unshared : ∀ first second row row' hash, db.contracts.find first = some row →
    db.contracts.find second = some row' → row.escrowTxHash = some hash →
    row'.escrowTxHash = some hash → first = second

/-- A statement that keeps it so. -/
def Vouches (db : Db) (accepted : TxHash → Prop) : Statement → Prop
  | .contractUpdate id status hash => status ≠ .pending ∧ (∀ txHash ∈ hash, accepted txHash) ∧
      (hash.isSome = true ∨ status = .cancelled ∨ db.Funded id)
  | .milestoneUpdate id _ => ∀ m, db.milestones.find id = some m → db.Funded m.contractId
  | .jobUpdate .. => True
  | .paymentCreate payment => db.Funded payment.contractId

theorem contractUpdate_free {status : ContractStatus} {hash : Option TxHash}
    (updated : db.execute (.contractUpdate id status hash) = some db') : db.hashFree id hash = true := by
  rw [execute] at updated
  split at updated
  · rename_i possible
    exact possible.2
  · contradiction

/-- A hash, once on record, is replaced and never taken away. -/
theorem execute_funded (executed : db.execute statement = some db') (funded : db.Funded key) :
    db'.Funded key := by
  obtain ⟨row, hash, found, carries⟩ := funded
  cases statement with
  | contractUpdate id status hash' =>
    obtain ⟨row', found', stored, others, _⟩ := contractUpdate_some executed
    by_cases here : key = id
    · subst here
      obtain rfl := Option.some.inj (found.symm.trans found')
      cases hash' with
      | some hash' => exact ⟨_, hash', stored, rfl⟩
      | none => exact ⟨_, hash, stored, carries⟩
    · exact ⟨row, hash, (others key here).trans found, carries⟩
  | milestoneUpdate => exact ⟨row, hash, (milestoneUpdate_some executed).1 ▸ found, carries⟩
  | jobUpdate => exact ⟨row, hash, (jobUpdate_some executed).1 ▸ found, carries⟩
  | paymentCreate => exact ⟨row, hash, (paymentCreate_some executed).1 ▸ found, carries⟩

theorem Vouches.kept {other : Statement} (vouches : db.Vouches accepted other)
    (executed : db.execute statement = some db') : db'.Vouches accepted other := by
  cases other with
  | contractUpdate =>
    exact ⟨vouches.1, vouches.2.1, vouches.2.2.imp_right (Or.imp_right (execute_funded executed))⟩
  | milestoneUpdate =>
    intro m found
    obtain ⟨old, found', place, _⟩ := execute_milestone executed found
    exact place ▸ execute_funded executed (vouches old found')
  | jobUpdate => trivial
  | paymentCreate => exact execute_funded executed vouches

theorem Vouched.execute (vouched : db.Vouched accepted) (vouches : db.Vouches accepted statement)
    (executed : db.execute statement = some db') : db'.Vouched accepted where
  pending := by
    intro id row found isPending
    rcases execute_row executed found with old | ⟨old, status, hash, rfl, _, rfl⟩
    · exact vouched.pending id row old isPending
    · exact absurd isPending vouches.1
  confirmed := by
    intro id row found status
    rcases execute_row executed found with old | ⟨old, status', hash, rfl, found', rfl⟩
    · exact execute_funded executed (vouched.confirmed id row old status)
    · rcases vouches.2.2 with carries | rfl | funded
      · obtain ⟨hash, rfl⟩ := Option.isSome_iff_exists.mp carries
        exact ⟨_, hash, found, rfl⟩
      · simp [Contract.updated] at status
      · exact execute_funded executed funded
  recorded := by
    intro id row hash found carries
    rcases execute_row executed found with old | ⟨old, status, hash', rfl, found', rfl⟩
    · exact vouched.recorded id row hash old carries
    · cases hash' with
      | none => exact vouched.recorded id old hash found' carries
      | some hash' => exact vouches.2.1 hash carries
  begun := by
    intro id m found status
    obtain ⟨old, found', place, same | ⟨status', rfl⟩⟩ := execute_milestone executed found
    · exact place ▸ execute_funded executed (vouched.begun id old found' (same ▸ status))
    · exact place ▸ execute_funded executed (vouches old found')
  paid := by
    intro payment member
    rcases execute_payment executed member with old | rfl
    · exact execute_funded executed (vouched.paid payment old)
    · exact execute_funded executed vouches
  unshared := by
    -- the updated row shares its hash with no other, new or not
    have fresh : ∀ {id key : Uuid} {old row : Contract} {status : ContractStatus}
        {hash' : Option TxHash} {hash : TxHash}, statement = .contractUpdate id status hash' →
        db.contracts.find id = some old → db.contracts.find key = some row →
        (old.updated status hash').escrowTxHash = some hash → row.escrowTxHash = some hash →
        id = key := by
      rintro id key old row status hash' hash rfl found found' carries carries'
      cases hash' with
      | none => exact vouched.unshared id key old row hash found found' carries carries'
      | some hash' =>
        obtain rfl : hash' = hash := Option.some.inj carries
        have free := List.all_eq_true.mp (contractUpdate_free executed) row (Table.mem_of_find found')
        simpa [carries', Table.key_of_find found', eq_comm] using free
    intro first second row row' hash found found' carries carries'
    rcases execute_row executed found with old | ⟨old, status, hash₁, same, found₁, rfl⟩
    · rcases execute_row executed found' with old' | ⟨old', status', hash₂, same', found₂, rfl⟩
      · exact vouched.unshared first second row row' hash old old' carries carries'
      · exact (fresh same' found₂ old carries' carries).symm
    · rcases execute_row executed found' with old' | ⟨old', status', hash₂, same', found₂, rfl⟩
      · exact fresh same found₁ old' carries carries'
      · cases same.symm.trans same'
        rfl

theorem Vouched.executeAll {statements : List Statement} (vouched : db.Vouched accepted)
    (vouches : ∀ statement ∈ statements, db.Vouches accepted statement)
    (executed : db.executeAll statements = some db') : db'.Vouched accepted := by
  induction statements generalizing db with
  | nil =>
    cases executed
    exact vouched
  | cons statement rest ih =>
    obtain ⟨between, first, later⟩ := executeAll_cons executed
    refine ih (vouched.execute (vouches statement List.mem_cons_self) first) ?_ later
    intro other member
    exact (vouches other (List.mem_cons_of_mem _ member)).kept first

theorem executeAll_funded {statements : List Statement}
    (executed : db.executeAll statements = some db') (funded : db.Funded key) : db'.Funded key := by
  induction statements generalizing db with
  | nil =>
    cases executed
    exact funded
  | cons statement rest ih =>
    obtain ⟨between, first, later⟩ := executeAll_cons executed
    exact ih later (execute_funded first funded)

section Create
variable {ids : List Uuid} {data : NewContract}

theorem create_funded (created : db.create id ids data = some db') (funded : db.Funded key) :
    db'.Funded key := by
  obtain ⟨row, hash, found, carries⟩ := funded
  obtain ⟨_, absent, _, others, _⟩ := create_some created
  have other : key ≠ id := by
    rintro rfl
    rw [absent] at found
    contradiction
  exact ⟨row, hash, (others key other).trans found, carries⟩

/-- A contract after a creation is one from before, or pending and without a hash. -/
theorem create_row {row : Contract} (created : db.create id ids data = some db')
    (found : db'.contracts.find key = some row) :
    db.contracts.find key = some row ∨ row.status = .pending ∧ row.escrowTxHash = none := by
  obtain ⟨_, _, stored, others, _⟩ := create_some created
  by_cases here : key = id
  · subst here
    obtain rfl := Option.some.inj (stored.symm.trans found)
    exact .inr ⟨rfl, rfl⟩
  · exact .inl ((others key here).symm.trans found)

theorem Vouched.create (vouched : db.Vouched accepted) (created : db.create id ids data = some db') :
    db'.Vouched accepted where
  pending := by
    intro key row found isPending
    rcases create_row created found with old | new
    · exact vouched.pending key row old isPending
    · exact new.2
  confirmed := by
    intro key row found status
    rcases create_row created found with old | new
    · exact create_funded created (vouched.confirmed key row old status)
    · simp [new.1] at status
  recorded := by
    intro key row hash found carries
    rcases create_row created found with old | new
    · exact vouched.recorded key row hash old carries
    · exact nomatch carries.symm.trans new.2
  begun := by
    intro key m found begun
    rcases create_milestone_origin created found with old | pending
    · exact create_funded created (vouched.begun key m old begun)
    · exact absurd pending begun
  paid := by
    intro payment member
    rw [(create_some created).2.2.2.2.1] at member
    exact create_funded created (vouched.paid payment member)
  unshared := by
    intro first second row row' hash found found' carries carries'
    rcases create_row created found with old | new
    · rcases create_row created found' with old' | new'
      · exact vouched.unshared first second row row' hash old old' carries carries'
      · exact nomatch carries'.symm.trans new'.2
    · exact nomatch carries.symm.trans new.2

end Create

theorem Vouched.mono (vouched : db.Vouched accepted) (more : ∀ hash, accepted hash → accepted' hash) :
    db.Vouched accepted' :=
  ⟨vouched.pending, vouched.confirmed, fun id row hash found carries =>
    more hash (vouched.recorded id row hash found carries), vouched.begun, vouched.paid,
    vouched.unshared⟩

end Db

/-! ### The requests -/

/-- The statements of an operation. -/
def Op.statements : Op → List Statement
  | .contractUpdate id status hash => [.contractUpdate id status hash]
  | .milestoneUpdate id status => [.milestoneUpdate id status]
  | .transaction statements => statements
  | _ => []

/-- What a request writes keeps the database so, as long as what it has read was so. -/
theorem writes_vouches {later : List Exchange} {op : Op} (contract : endpoint.contractId = some id)
    (admits : endpoint.Admits view) (writes : Writes view endpoint later op)
    (funded : view.escrowTxHash.isSome = true ∨ view.status = .active ∨ view.status = .disputed →
      db.Funded id)
    (places : ∀ m ∈ view.milestones, ∀ m', db.milestones.find m.id = some m' → m'.contractId = id)
    (verified : ∀ txHash, (⟨.horizon txHash, .ok ()⟩ : Exchange) ∈ later → accepted txHash) :
    ∀ statement ∈ op.statements, db.Vouches accepted statement := by
  have listed : ∀ {milestoneId : Uuid} {m : Milestone},
      view.milestones.find? (·.id = milestoneId) = some m → (view.status = .active) →
      ∀ m', db.milestones.find m.id = some m' → db.Funded m'.contractId := by
    intro milestoneId m found active m' stored
    rw [places m (List.mem_of_find?_eq_some found) m' stored]
    exact funded (.inr (.inl active))
  cases writes with
  | @confirm _ _ txHash =>
    intro statement member
    obtain rfl := List.mem_singleton.mp member
    refine ⟨nofun, fun hash carried => ?_, .inl rfl⟩
    obtain rfl := Option.mem_some_iff.mp carried
    exact verified _ (List.mem_singleton.mpr rfl)
  | @submit _ milestoneId =>
    intro statement member
    obtain rfl := List.mem_singleton.mp member
    obtain ⟨m, found, _⟩ := admits.2.2
    obtain rfl : m.id = milestoneId := by simpa using List.find?_some found
    exact listed found admits.2.1
  | pay found =>
    cases contract
    intro statement member
    simp only [Op.statements, payMilestone, List.mem_cons, List.not_mem_nil, or_false] at member
    rcases member with rfl | rfl | rfl
    · exact listed found admits.2.1
    · exact listed found admits.2.1
    · exact funded (.inr (.inl admits.2.1))
  | complete =>
    cases contract
    intro statement member
    obtain rfl := List.mem_singleton.mp member
    exact ⟨nofun, nofun, .inr (.inr (funded (.inr (.inl admits.2.1))))⟩
  | dispute =>
    cases contract
    intro statement member
    obtain rfl := List.mem_singleton.mp member
    exact ⟨nofun, nofun, .inr (.inr (funded (.inr (.inl admits.2))))⟩
  | resolve =>
    cases contract
    have under := funded (.inr (.inr admits.2.1))
    intro statement member
    simp only [Op.statements, List.mem_cons, List.not_mem_nil, or_false] at member
    rcases member with rfl | rfl
    · exact under
    · refine ⟨?_, nofun, .inr (.inr under)⟩
      rw [finalStatus]
      split <;> exact nofun
  | @cancel _ _ _ _ _ hash refunded =>
    cases contract
    intro statement member
    rcases List.mem_append.mp member with refund | rest
    · cases hash with
      | none => contradiction
      | some hash =>
        obtain rfl := List.mem_singleton.mp refund
        exact funded (.inl (refunded rfl))
    · simp only [List.mem_cons, List.not_mem_nil, or_false] at rest
      rcases rest with rfl | rfl
      · exact ⟨nofun, nofun, .inr (.inl rfl)⟩
      · trivial

/-! ### The service -/

/-- Before the first contract: no request yet, and nothing in the tables. -/
structure Service.Started (service : Service τ) : Prop where
  running : service.running = []
  contracts : service.world.db.contracts.rows = []
  milestones : service.world.db.milestones.rows = []
  payments : service.world.db.payments.rows = []

/-- `verifyTransaction` has found the transaction on the network. -/
def Verified (trace : List (Service τ × Occurrence)) (hash : TxHash) : Prop :=
  ∃ point ∈ trace, ∃ index, point.2 = .served index (.horizon hash) (.ok ())

theorem Service.Started.vouched (started : start.Started) : start.world.db.Vouched accepted := by
  have nothing : ∀ {ρ κ : Type} [DecidableEq κ] {key : ρ → κ} {t : Table key} {k : κ} {row : ρ},
      t.rows = [] → t.find k ≠ some row := by
    intro ρ κ _ key t k row empty found
    exact List.not_mem_nil (empty ▸ Table.mem_of_find found)
  constructor
  · exact fun _ _ found => absurd found (nothing started.contracts)
  · exact fun _ _ found => absurd found (nothing started.contracts)
  · exact fun _ _ _ found => absurd found (nothing started.contracts)
  · exact fun _ _ found => absurd found (nothing started.milestones)
  · intro payment member
    rw [started.payments] at member
    contradiction
  · exact fun _ _ _ _ _ found => absurd found (nothing started.contracts)

theorem serves_funded {w w' : World τ} {op : Op} {answer : Except Failure op.Answer}
    (served : Serves host faults index w op answer w') (funded : w.db.Funded id) : w'.db.Funded id := by
  cases served with
  | created created => exact Db.create_funded created funded
  | contractUpdated updated => exact Db.execute_funded updated funded
  | milestoneUpdated updated => exact Db.execute_funded updated funded
  | committed executed => exact Db.executeAll_funded executed funded
  | _ => exact funded

theorem step_funded (funded : service.world.db.Funded id)
    (step : Service.Step host config faults service occurrence service') :
    service'.world.db.Funded id := by
  cases step with
  | start => exact funded
  | served found answered => exact serves_funded answered funded
  | outside around =>
    cases around with
    | network moved => cases moved <;> exact funded
    | elsewhere => exact funded

theorem run_funded (run : Runs.Run (Service.Step host config faults) start trace service)
    (funded : start.world.db.Funded id) : service.world.db.Funded id :=
  run.invariant (I := fun service => service.world.db.Funded id) step_funded funded

/-- What a request writes in a run keeps the database so, if all that was there to be
read before was so. -/
theorem run_vouches {op : Op} {answer : Except Failure op.Answer}
    (run : Runs.Run (Service.Step host config faults) start trace service) (idle : start.running = [])
    (before : ∀ earlier rest middle, trace = earlier ++ rest →
      Runs.Run (Service.Step host config faults) start earlier middle →
      Runs.Run (Service.Step host config faults) middle rest service →
      middle.world.db.Vouched (Verified earlier))
    (step : Service.Step host config faults service (.served index op answer) service')
    (known : ∀ data, op ≠ .create data) :
    ∀ statement ∈ op.statements, service.world.db.Vouches (Verified trace) statement := by
  by_cases busy : op.Idle ∨ ∃ signer call, op = .submit signer call
  · intro statement member
    rcases busy with idle | ⟨_, _, rfl⟩
    · cases op <;> contradiction
    · contradiction
  obtain ⟨unidle, own⟩ := not_or.mp busy
  obtain ⟨earlier, reading, between, endpoint, id, view, later, cut, first, second, _, found, contract,
    admits, heard, writes⟩ := write_rests run idle step unidle known
      fun signer call same => own ⟨signer, call, same⟩
  obtain ⟨stored, milestones, _⟩ := Db.contractView_some found
  have then' := before earlier _ reading.1 cut first second
  refine writes_vouches contract admits writes ?_ ?_ ?_
  · intro work
    apply run_funded second
    rcases work with carries | status
    · obtain ⟨hash, carries⟩ := Option.isSome_iff_exists.mp carries
      exact ⟨_, hash, stored, carries⟩
    · exact then'.confirmed id _ stored (status.imp_right .inl)
  · intro m member m' stored'
    rw [milestones] at member
    obtain ⟨inside, here⟩ := Db.mem_milestonesOf.mp member
    obtain ⟨kept, found', place, _⟩ := run_places second m m.id (Table.find_of_mem inside)
    obtain rfl := Option.some.inj (stored'.symm.trans found')
    exact place.trans here
  · intro txHash told
    have heard' := heard ▸ List.mem_cons_of_mem (seen id view) told
    obtain ⟨point, member, verified⟩ := mem_told.mp heard'
    exact ⟨point, member, index, verified⟩

/-- However the requests interleave: a pending contract has no funding on record; an
active, disputed or completed one has, found on the network by `verifyTransaction`;
milestones are begun and payments made only where there is one; and no two contracts
share it. -/
theorem run_vouched (run : Runs.Run (Service.Step host config faults) start trace service)
    (started : start.Started) : service.world.db.Vouched (Verified trace) := by
  refine run.history (I := fun trace service => service.world.db.Vouched (Verified trace)) ?_
    started.vouched
  intro trace service occurrence service' run before step
  have more : ∀ hash, Verified trace hash → Verified (trace ++ [(service, occurrence)]) hash := by
    rintro hash ⟨point, member, verified⟩
    exact ⟨point, List.mem_append_left _ member, verified⟩
  have here := before trace [] service (List.append_nil _).symm run .refl
  suffices after : service'.world.db.Vouched (Verified trace) from after.mono more
  cases occurrence with
  | start =>
    cases step
    exact here
  | outside =>
    cases step with
    | outside around =>
      cases around with
      | network moved => cases moved <;> exact here
      | elsewhere =>
        exact ⟨here.pending, here.confirmed, here.recorded, here.begun, here.paid, here.unshared⟩
  | served index op answer =>
    have vouches := fun known => run_vouches run started.running before step known
    cases step with
    | served found answered =>
      cases answered with
      | created created => exact here.create created
      | contractUpdated updated => exact here.execute (vouches nofun _ (List.mem_singleton_self _)) updated
      | milestoneUpdated updated => exact here.execute (vouches nofun _ (List.mem_singleton_self _)) updated
      | committed executed => exact here.executeAll (vouches nofun) executed
      | notified =>
        exact ⟨here.pending, here.confirmed, here.recorded, here.begun, here.paid, here.unshared⟩
      | _ => exact here

/-- An offered contract, funded and confirmed. -/
theorem run_vouched_sample : ∃ (service : Service (Escrow.Bank Address))
    (trace : List (Service (Escrow.Bank Address) × Occurrence)) (row : Contract),
    service.world.db.contracts.find Sample.contractId = some row ∧ row.status = .active ∧
      service.world.db.Vouched (Verified trace) := by
  have happens : ∃ offered, Sample.plays Sample.idle Sample.offer = some offered ∧
      Sample.hash ∉ offered.2.world.chain.included ∧
      ∃ confirmed, Sample.plays (Sample.funded offered.2) (Sample.claim ++ [.serve 1]) =
        some confirmed ∧
      (confirmed.2.world.db.contracts.find Sample.contractId).map Contract.status = some .active := by
    decide
  obtain ⟨offered, first, fresh, confirmed, second, active⟩ := happens
  obtain ⟨row, stored, active⟩ := Option.map_eq_some_iff.mp active
  have run := Sample.run_around first second (.called _ _ fresh) rfl
  exact ⟨confirmed.2, _, row, stored, active, run_vouched run ⟨rfl, rfl, rfl, rfl⟩⟩

end Stellance.Backend
