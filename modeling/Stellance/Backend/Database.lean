import Stellance.Backend.Dossier

/-! What a statement leaves in the database, contract by contract. -/
namespace Stellance.Backend.Db
variable {db db' : Db} {id key : Uuid} {status : ContractStatus} {hash : Option TxHash}
  {payment : Payment} {row : Contract}

theorem mem_milestonesOf {m : Milestone} :
    m ∈ db.milestonesOf id ↔ m ∈ db.milestones.rows ∧ m.contractId = id := by
  simp [milestonesOf, Table.mem_select]

theorem mem_paymentsOf : payment ∈ db.paymentsOf id ↔ payment ∈ db.payments.rows ∧
    payment.contractId = id := by
  simp [paymentsOf, Table.mem_select]

theorem milestonesOf_ids (db : Db) (id : Uuid) : ((db.milestonesOf id).map Milestone.id).Nodup :=
  (List.Sublist.map Milestone.id List.filter_sublist).nodup db.milestones.nodup

/-! ### Updates -/

theorem contractUpdate_some (updated : db.execute (.contractUpdate id status hash) = some db') :
    ∃ row, db.contracts.find id = some row ∧
      db'.contracts.find id = some (row.updated status hash) ∧
      (∀ key ≠ id, db'.contracts.find key = db.contracts.find key) ∧
      db'.milestones = db.milestones ∧ db'.payments = db.payments := by
  rw [execute] at updated
  split at updated
  · rename_i possible
    obtain rfl := Option.some.inj updated
    obtain ⟨row, found⟩ := Option.isSome_iff_exists.mp possible.1
    have keeps := Contract.updated_id status hash
    exact ⟨row, found, Table.find_modify_self keeps found,
      fun key other => Table.find_modify_other keeps other, rfl, rfl⟩
  · contradiction

/-- Without a hash to store only the row has to be there. -/
theorem contractUpdate_possible (status : ContractStatus) (found : db.contracts.find id = some row) :
    ∃ db', db.execute (.contractUpdate id status none) = some db' ∧ db'.jobs = db.jobs := by
  have free : db.hashFree id none = true := by simp [hashFree]
  rw [execute, if_pos ⟨by rw [found]; rfl, free⟩]
  exact ⟨_, rfl, rfl⟩

theorem jobUpdate_some {status : JobStatus} (updated : db.execute (.jobUpdate id status) = some db') :
    db'.contracts = db.contracts ∧ db'.milestones = db.milestones ∧ db'.payments = db.payments := by
  rw [execute] at updated
  split at updated
  · obtain rfl := Option.some.inj updated
    exact ⟨rfl, rfl, rfl⟩
  · contradiction

theorem jobUpdate_possible {job : Job} (status : JobStatus) (found : db.jobs.find id = some job) :
    ∃ db', db.execute (.jobUpdate id status) = some db' := by
  rw [execute, if_pos (by rw [found]; rfl)]
  exact ⟨_, rfl⟩

/-- Every milestone stays with its contract, at its amount. -/
def SamePlaces (db db' : Db) : Prop :=
  ∀ m id, db.milestones.find id = some m →
    ∃ m', db'.milestones.find id = some m' ∧ m'.contractId = m.contractId ∧ m'.amount = m.amount

theorem SamePlaces.of_eq (same : db'.milestones = db.milestones) : SamePlaces db db' := by
  intro m id found
  exact ⟨m, same ▸ found, rfl, rfl⟩

theorem SamePlaces.trans {db'' : Db} (first : SamePlaces db db') (second : SamePlaces db' db'') :
    SamePlaces db db'' := by
  intro m id found
  obtain ⟨m', found', place, amount⟩ := first m id found
  obtain ⟨m'', found'', place', amount'⟩ := second m' id found'
  exact ⟨m'', found'', place'.trans place, amount'.trans amount⟩

theorem milestoneUpdate_some {status : MilestoneStatus}
    (updated : db.execute (.milestoneUpdate id status) = some db') :
    db'.contracts = db.contracts ∧ db'.payments = db.payments ∧ db'.users = db.users ∧
      db'.jobs = db.jobs ∧ SamePlaces db db' ∧
      ∀ key, db'.milestonesOf key = Milestone.mark (db.milestonesOf key) id status := by
  rw [execute] at updated
  split at updated
  · obtain rfl := Option.some.inj updated
    have keeps := Milestone.updated_id status
    refine ⟨rfl, rfl, rfl, rfl, ?_, fun key => Table.select_modify keeps fun _ => rfl⟩
    intro m key found
    rw [Table.find_modify keeps]
    split
    · rename_i same
      subst same
      rw [found]
      exact ⟨_, rfl, rfl, rfl⟩
    · exact ⟨m, found, rfl, rfl⟩
  · contradiction

theorem milestoneUpdate_possible {m : Milestone} (status : MilestoneStatus)
    (found : db.milestones.find id = some m) :
    ∃ db', db.execute (.milestoneUpdate id status) = some db' := by
  rw [execute, if_pos (by rw [found]; rfl)]
  exact ⟨_, rfl⟩

/-- Marking a milestone of another contract changes nothing here. -/
theorem mark_other {m : Milestone} {status : MilestoneStatus}
    (found : db.milestones.find id = some m) (other : m.contractId ≠ key) :
    Milestone.mark (db.milestonesOf key) id status = db.milestonesOf key := by
  refine (List.map_congr_left ?_).trans (List.map_id _)
  intro m' member
  obtain ⟨inside, here⟩ := mem_milestonesOf.mp member
  rw [if_neg]
  · rfl
  · rintro rfl
    obtain rfl := Option.some.inj (found.symm.trans (Table.find_of_mem inside))
    exact other here

theorem paymentCreate_some (created : db.execute (.paymentCreate payment) = some db') :
    db'.contracts = db.contracts ∧ db'.milestones = db.milestones ∧ db'.users = db.users ∧
      db'.jobs = db.jobs ∧ db'.payments.rows = db.payments.rows ++ [payment] ∧
      ∀ key, db'.paymentsOf key =
        db.paymentsOf key ++ if payment.contractId = key then [payment] else [] := by
  rw [execute] at created
  split at created
  · obtain ⟨payments, inserted, rfl⟩ := Option.map_eq_some_iff.mp created
    refine ⟨rfl, rfl, rfl, rfl, (Table.insert_some inserted).2, ?_⟩
    intro key
    rw [paymentsOf, Table.select_insert inserted]
    simp [paymentsOf]
  · contradiction

theorem paymentCreate_possible (payable : db.payable payment = true)
    (fresh : ∀ other ∈ db.payments.rows, other.stellarTxHash ≠ payment.stellarTxHash) :
    ∃ db', db.execute (.paymentCreate payment) = some db' := by
  obtain ⟨payments, inserted⟩ := Table.exists_insert (Table.find_eq_none.mpr fresh)
  rw [execute, if_pos payable, inserted]
  exact ⟨_, rfl⟩

/-! ### A new contract -/

theorem create_some {milestoneIds : List Uuid} {data : NewContract}
    (created : db.create id milestoneIds data = some db') :
    milestoneIds.length = data.milestones.length ∧ db.contracts.find id = none ∧
      db'.contracts.find id = some ⟨id, data.jobId, data.freelancerId, data.clientId, .pending, none⟩ ∧
      (∀ key ≠ id, db'.contracts.find key = db.contracts.find key) ∧
      db'.payments = db.payments ∧ SamePlaces db db' ∧
      ∀ key, db'.milestonesOf key = db.milestonesOf key ++ if key = id then
        (milestoneIds.zip data.milestones).map fun (milestoneId, title, amount) =>
          ⟨milestoneId, id, title, amount, .pending⟩ else [] := by
  simp only [create, Option.bind_eq_bind, Option.bind_eq_some_iff] at created
  obtain ⟨_, guarded, contracts, inserted, milestones, planned, opened⟩ := created
  have sameLength : milestoneIds.length = data.milestones.length := by
    by_contra different
    simp [different, guard] at guarded
  obtain ⟨sameContracts, sameMilestones, samePayments⟩ := jobUpdate_some opened
  refine ⟨sameLength, (Table.insert_some inserted).1, ?_, ?_, samePayments, ?_, ?_⟩
  · rw [sameContracts, Table.find_insert inserted, if_pos rfl]
  · intro key other
    rw [sameContracts, Table.find_insert inserted, if_neg (Ne.symm other)]
  · intro m key found
    exact ⟨m, sameMilestones ▸ Table.find_insertAll planned found, rfl, rfl⟩
  · intro key
    rw [milestonesOf, sameMilestones, Table.select_insertAll planned]
    congr 1
    split
    · rename_i same
      subst same
      apply List.filter_eq_self.mpr
      intro m member
      obtain ⟨_, _, rfl⟩ := List.mem_map.mp member
      simp
    · rename_i other
      apply List.filter_eq_nil_iff.mpr
      intro m member
      obtain ⟨_, _, rfl⟩ := List.mem_map.mp member
      simpa using Ne.symm other

/-! ### Views -/

theorem contractView_some {view : ContractView} (found : db.contractView id = some view) :
    db.contracts.find id = some view.toContract ∧ view.milestones = db.milestonesOf id ∧
      db.jobs.find view.jobId = some view.job ∧ (db.users.find view.clientId).isSome ∧
      (db.users.find view.freelancerId).isSome := by
  simp only [contractView, Option.bind_eq_bind, Option.bind_eq_some_iff] at found
  obtain ⟨contract, stored, job, hasJob, client, hasClient, freelancer, hasFreelancer, same⟩ := found
  obtain rfl := Option.some.inj same
  exact ⟨stored, rfl, hasJob, Option.isSome_iff_exists.mpr ⟨_, hasClient⟩,
    Option.isSome_iff_exists.mpr ⟨_, hasFreelancer⟩⟩

/-- A contract stays in view while its row and what it refers to stay. -/
theorem contractView_kept {view : ContractView} (found : db.contractView id = some view)
    (contracts : db'.contracts = db.contracts) (jobs : db'.jobs = db.jobs)
    (users : db'.users = db.users) :
    ∃ view', db'.contractView id = some view' := by
  simp only [contractView, Option.bind_eq_bind, Option.bind_eq_some_iff] at found
  obtain ⟨contract, stored, job, hasJob, client, hasClient, freelancer, hasFreelancer, _⟩ := found
  simp [contractView, contracts, jobs, users, stored, hasJob, hasClient, hasFreelancer]

/-- The view of a contract shows its new status, and the rest as before. -/
theorem contractUpdate_view {view : ContractView}
    (updated : db.execute (.contractUpdate id status hash) = some db')
    (found : db.contractView id = some view) :
    db'.contractView id = some { view with status, escrowTxHash := hash <|> view.escrowTxHash } := by
  simp only [contractView, Option.bind_eq_bind, Option.bind_eq_some_iff] at found
  obtain ⟨contract, stored, job, hasJob, client, hasClient, freelancer, hasFreelancer, same⟩ := found
  obtain rfl := Option.some.inj same
  rw [execute] at updated
  split at updated
  · obtain rfl := Option.some.inj updated
    have here := Table.find_modify_self (Contract.updated_id status hash) stored
    simp only [contractView, here, Option.bind_eq_bind, Option.bind_some]
    simp only [Contract.updated, hasJob, hasClient, hasFreelancer, Option.bind_some]
    rfl
  · contradiction

theorem listed {view : ContractView} {milestone : Milestone} {milestoneId : Uuid}
    (found : db.contractView id = some view)
    (listed : view.milestones.find? (·.id = milestoneId) = some milestone) :
    milestone ∈ db.milestonesOf id ∧ milestone.id = milestoneId := by
  rw [(contractView_some found).2.1] at listed
  exact ⟨List.mem_of_find?_eq_some listed, by simpa using List.find?_some listed⟩

/-! ### Transactions -/

theorem executeAll_cons {statement : Statement} {rest : List Statement}
    (executed : db.executeAll (statement :: rest) = some db') :
    ∃ between, db.execute statement = some between ∧ between.executeAll rest = some db' :=
  Option.bind_eq_some_iff.mp executed

theorem execute_places {statement : Statement} (executed : db.execute statement = some db') :
    SamePlaces db db' := by
  cases statement with
  | contractUpdate =>
    obtain ⟨_, _, _, _, milestones, _⟩ := contractUpdate_some executed
    exact .of_eq milestones
  | milestoneUpdate => exact (milestoneUpdate_some executed).2.2.2.2.1
  | jobUpdate => exact .of_eq (jobUpdate_some executed).2.1
  | paymentCreate => exact .of_eq (paymentCreate_some executed).2.1

theorem executeAll_places {statements : List Statement}
    (executed : db.executeAll statements = some db') : SamePlaces db db' := by
  induction statements generalizing db with
  | nil =>
    cases executed
    exact .of_eq rfl
  | cons statement rest ih =>
    obtain ⟨between, first, later⟩ := executeAll_cons executed
    exact (execute_places first).trans (ih later)

theorem executeAll_possible {between : Db} {statement : Statement} {rest : List Statement}
    (first : db.execute statement = some between) (later : between.executeAll rest = some db') :
    db.executeAll (statement :: rest) = some db' := by
  rw [executeAll, first]
  exact later

theorem payMilestone_some {milestone : Milestone} {hash : TxHash}
    (executed : db.executeAll (ContractsService.payMilestone id milestone hash) = some db') :
    db'.contracts = db.contracts ∧ db'.users = db.users ∧ db'.jobs = db.jobs ∧ SamePlaces db db' ∧
      db'.payments.rows = db.payments.rows ++ [⟨id, some milestone.id, milestone.amount, hash⟩] ∧
      (∀ key, db'.milestonesOf key = Milestone.mark (db.milestonesOf key) milestone.id .paid) ∧
      ∀ key, db'.paymentsOf key = db.paymentsOf key ++
        if id = key then [⟨id, some milestone.id, milestone.amount, hash⟩] else [] := by
  obtain ⟨first, approved, executed⟩ := executeAll_cons executed
  obtain ⟨second, paid, executed⟩ := executeAll_cons executed
  obtain ⟨third, created, executed⟩ := executeAll_cons executed
  obtain rfl := Option.some.inj executed
  obtain ⟨contracts₁, payments₁, users₁, jobs₁, places₁, marked₁⟩ := milestoneUpdate_some approved
  obtain ⟨contracts₂, payments₂, users₂, jobs₂, places₂, marked₂⟩ := milestoneUpdate_some paid
  obtain ⟨contracts₃, milestones₃, users₃, jobs₃, rows, more⟩ := paymentCreate_some created
  refine ⟨contracts₃.trans (contracts₂.trans contracts₁), users₃.trans (users₂.trans users₁),
    jobs₃.trans (jobs₂.trans jobs₁), (places₁.trans places₂).trans (.of_eq milestones₃), ?_, ?_, ?_⟩
  · rw [rows, payments₂, payments₁]
  · intro key
    rw [milestonesOf, milestones₃, ← milestonesOf, marked₂, marked₁, Milestone.mark_mark]
  · intro key
    rw [more, paymentsOf, payments₂, payments₁, ← paymentsOf]

theorem payMilestone_possible {milestone : Milestone} {hash : TxHash} {row : Contract}
    (found : db.contracts.find id = some row)
    (stored : db.milestones.find milestone.id = some milestone)
    (unpaid : ∀ payment ∈ db.payments.rows, payment.milestoneId ≠ some milestone.id)
    (fresh : ∀ payment ∈ db.payments.rows, payment.stellarTxHash ≠ hash) :
    ∃ db', db.executeAll (ContractsService.payMilestone id milestone hash) = some db' := by
  obtain ⟨first, approved⟩ := milestoneUpdate_possible .approved stored
  obtain ⟨contracts₁, payments₁, _, _, places₁, _⟩ := milestoneUpdate_some approved
  obtain ⟨m₁, stored₁, _⟩ := places₁ milestone milestone.id stored
  obtain ⟨second, paid⟩ := milestoneUpdate_possible .paid stored₁
  obtain ⟨contracts₂, payments₂, _, _, places₂, _⟩ := milestoneUpdate_some paid
  obtain ⟨m₂, stored₂, _⟩ := places₂ m₁ milestone.id stored₁
  have payable : second.payable ⟨id, some milestone.id, milestone.amount, hash⟩ = true := by
    simp only [payable, contracts₂, contracts₁, found, payments₂, payments₁, Option.all_some,
      stored₂, Option.isSome_some, true_and, decide_eq_true_eq, List.all_eq_true]
    exact unpaid
  obtain ⟨third, created⟩ := paymentCreate_possible payable (by rw [payments₂, payments₁]; exact fresh)
  exact ⟨third, executeAll_possible approved (executeAll_possible paid (executeAll_possible created rfl))⟩

/-- Changes of job rows. -/
def JobUpdates (statements : List Statement) : Prop :=
  ∀ statement ∈ statements, ∃ id status, statement = .jobUpdate id status

theorem jobUpdates_some {statements : List Statement} (jobs : JobUpdates statements)
    (executed : db.executeAll statements = some db') :
    db'.contracts = db.contracts ∧ db'.milestones = db.milestones ∧ db'.payments = db.payments := by
  induction statements generalizing db with
  | nil =>
    obtain rfl := Option.some.inj executed
    exact ⟨rfl, rfl, rfl⟩
  | cons statement rest ih =>
    obtain ⟨between, first, later⟩ := executeAll_cons executed
    obtain ⟨_, _, rfl⟩ := jobs statement List.mem_cons_self
    obtain ⟨contracts, milestones, payments⟩ := jobUpdate_some first
    obtain ⟨contracts', milestones', payments'⟩ :=
      ih (fun statement member => jobs statement (List.mem_cons_of_mem _ member)) later
    exact ⟨contracts'.trans contracts, milestones'.trans milestones, payments'.trans payments⟩

/-- The row of a contract and jobs are written, and nothing else. -/
theorem statusUpdate_some {rest : List Statement} (jobs : JobUpdates rest)
    (executed : db.executeAll (.contractUpdate id status hash :: rest) = some db') :
    ∃ row, db.contracts.find id = some row ∧
      db'.contracts.find id = some (row.updated status hash) ∧
      (∀ key ≠ id, db'.contracts.find key = db.contracts.find key) ∧
      db'.milestones = db.milestones ∧ db'.payments = db.payments := by
  obtain ⟨between, updated, executed⟩ := executeAll_cons executed
  obtain ⟨row, found, stored, others, milestones, payments⟩ := contractUpdate_some updated
  obtain ⟨contracts', milestones', payments'⟩ := jobUpdates_some jobs executed
  refine ⟨row, found, contracts' ▸ stored, ?_, milestones'.trans milestones, payments'.trans payments⟩
  intro key other
  rw [contracts', others key other]

/-- The same with a payment of what was left. -/
theorem settlement_some {rest : List Statement} {amount : Nat} {txHash : TxHash}
    (jobs : JobUpdates rest)
    (executed : db.executeAll (.paymentCreate ⟨id, none, amount, txHash⟩ ::
      .contractUpdate id status hash :: rest) = some db') :
    ∃ row, db.contracts.find id = some row ∧
      db'.contracts.find id = some (row.updated status hash) ∧
      (∀ key ≠ id, db'.contracts.find key = db.contracts.find key) ∧
      db'.milestones = db.milestones ∧
      db'.payments.rows = db.payments.rows ++ [⟨id, none, amount, txHash⟩] ∧
      ∀ key, db'.paymentsOf key =
        db.paymentsOf key ++ if id = key then [⟨id, none, amount, txHash⟩] else [] := by
  obtain ⟨between, created, executed⟩ := executeAll_cons executed
  obtain ⟨contracts₁, milestones₁, _, _, rows, more⟩ := paymentCreate_some created
  obtain ⟨row, found, stored, others, milestones, payments⟩ := statusUpdate_some jobs executed
  rw [contracts₁] at found others
  refine ⟨row, found, stored, others, milestones.trans milestones₁, payments ▸ rows, ?_⟩
  intro key
  rw [paymentsOf, payments, ← paymentsOf, more]

theorem statusUpdate_possible {rest : List Statement} (status : ContractStatus)
    (found : db.contracts.find id = some row)
    (later : ∀ between : Db, between.jobs = db.jobs → ∃ db', between.executeAll rest = some db') :
    ∃ db', db.executeAll (.contractUpdate id status none :: rest) = some db' := by
  obtain ⟨between, first, jobs⟩ := contractUpdate_possible status found
  obtain ⟨db', executed⟩ := later between jobs
  exact ⟨db', executeAll_possible first executed⟩

theorem settlement_possible {rest : List Statement} {amount : Nat} {txHash : TxHash}
    (status : ContractStatus) (found : db.contracts.find id = some row)
    (fresh : ∀ payment ∈ db.payments.rows, payment.stellarTxHash ≠ txHash)
    (later : ∀ between : Db, between.jobs = db.jobs → ∃ db', between.executeAll rest = some db') :
    ∃ db', db.executeAll (.paymentCreate ⟨id, none, amount, txHash⟩ ::
      .contractUpdate id status none :: rest) = some db' := by
  have payable : db.payable ⟨id, none, amount, txHash⟩ = true := by simp [payable, found]
  obtain ⟨between, created⟩ := paymentCreate_possible payable fresh
  obtain ⟨contracts, _, _, jobs, _⟩ := paymentCreate_some created
  obtain ⟨db', executed⟩ := statusUpdate_possible status (contracts ▸ found)
    fun between' same => later between' (same.trans jobs)
  exact ⟨db', executeAll_possible created executed⟩

/-! ### Where a row comes from -/

section Origins
variable {statement : Statement} {m : Milestone}

theorem milestoneUpdate_find {key : Uuid} {status : MilestoneStatus}
    (updated : db.execute (.milestoneUpdate key status) = some db') (id : Uuid) :
    ((db.milestones.find key).isSome = true) ∧ db'.milestones.find id =
      if id = key then (db.milestones.find key).map (·.updated status) else db.milestones.find id := by
  rw [execute] at updated
  split at updated
  · rename_i found
    obtain rfl := Option.some.inj updated
    exact ⟨found, Table.find_modify (Milestone.updated_id status)⟩
  · contradiction

/-- New milestones leave those that are there. -/
theorem create_milestone {key : Uuid} {ids : List Uuid} {data : NewContract}
    (created : db.create key ids data = some db') (found : db.milestones.find id = some m) :
    db'.milestones.find id = some m := by
  simp only [create, Option.bind_eq_bind, Option.bind_eq_some_iff] at created
  obtain ⟨_, _, _, _, milestones, planned, opened⟩ := created
  rw [(jobUpdate_some opened).2.1]
  exact Table.find_insertAll planned found

/-- A milestone after a creation is one from before, or new and pending. -/
theorem create_milestone_origin {key : Uuid} {ids : List Uuid} {data : NewContract}
    (created : db.create key ids data = some db') (found : db'.milestones.find id = some m) :
    db.milestones.find id = some m ∨ m.status = .pending := by
  obtain ⟨_, _, _, _, _, _, planned⟩ := create_some created
  obtain ⟨member, rfl⟩ := Table.find_eq_some.mp found
  have listed := mem_milestonesOf.mpr ⟨member, (rfl : m.contractId = m.contractId)⟩
  rw [planned] at listed
  rcases List.mem_append.mp listed with old | new
  · exact .inl (Table.find_of_mem (mem_milestonesOf.mp old).1)
  · split at new
    · obtain ⟨_, _, rfl⟩ := List.mem_map.mp new
      exact .inr rfl
    · contradiction

/-- A milestone after a statement is one from before, in the same place, and in another
status only where the statement names it. -/
theorem execute_milestone (executed : db.execute statement = some db')
    (found : db'.milestones.find id = some m) :
    ∃ old, db.milestones.find id = some old ∧ m.contractId = old.contractId ∧
      (m.status = old.status ∨ ∃ status, statement = .milestoneUpdate id status) := by
  cases statement with
  | contractUpdate =>
    obtain ⟨_, _, _, _, milestones, _⟩ := contractUpdate_some executed
    exact ⟨m, milestones ▸ found, rfl, .inl rfl⟩
  | jobUpdate => exact ⟨m, (jobUpdate_some executed).2.1 ▸ found, rfl, .inl rfl⟩
  | paymentCreate => exact ⟨m, (paymentCreate_some executed).2.1 ▸ found, rfl, .inl rfl⟩
  | milestoneUpdate key status =>
    rw [(milestoneUpdate_find executed id).2] at found
    split at found
    · rename_i here
      subst here
      obtain ⟨old, found', rfl⟩ := Option.map_eq_some_iff.mp found
      exact ⟨old, found', rfl, .inr ⟨status, rfl⟩⟩
    · exact ⟨m, found, rfl, .inl rfl⟩

/-- A contract after a statement that is not about it is as before. -/
theorem execute_contract (executed : db.execute statement = some db')
    (other : ∀ status hash, statement ≠ .contractUpdate id status hash) :
    db'.contracts.find id = db.contracts.find id := by
  cases statement with
  | contractUpdate key status hash =>
    obtain ⟨_, _, _, others, _⟩ := contractUpdate_some executed
    exact others id fun same => other status hash (same ▸ rfl)
  | milestoneUpdate => rw [(milestoneUpdate_some executed).1]
  | jobUpdate => rw [(jobUpdate_some executed).1]
  | paymentCreate => rw [(paymentCreate_some executed).1]

/-- A contract after a statement is one from before, unless the statement updates it. -/
theorem execute_row (executed : db.execute statement = some db') (found : db'.contracts.find id = some row) :
    db.contracts.find id = some row ∨ ∃ old status hash, statement = .contractUpdate id status hash ∧
      db.contracts.find id = some old ∧ row = old.updated status hash := by
  by_cases other : ∀ status hash, statement ≠ .contractUpdate id status hash
  · exact .inl ((execute_contract executed other).symm.trans found)
  · simp only [not_forall, not_not] at other
    obtain ⟨status, hash, rfl⟩ := other
    obtain ⟨old, found', stored, _⟩ := contractUpdate_some executed
    exact .inr ⟨old, status, hash, rfl, found', Option.some.inj (found.symm.trans stored)⟩

/-- A payment after a statement is one from before, or the one it creates. -/
theorem execute_payment {payment : Payment} (executed : db.execute statement = some db')
    (member : payment ∈ db'.payments.rows) :
    payment ∈ db.payments.rows ∨ statement = .paymentCreate payment := by
  cases statement with
  | contractUpdate =>
    obtain ⟨_, _, _, _, _, payments⟩ := contractUpdate_some executed
    exact .inl (payments ▸ member)
  | milestoneUpdate => exact .inl ((milestoneUpdate_some executed).2.1 ▸ member)
  | jobUpdate => exact .inl ((jobUpdate_some executed).2.2 ▸ member)
  | paymentCreate row =>
    rw [(paymentCreate_some executed).2.2.2.2.1] at member
    rcases List.mem_append.mp member with earlier | new
    · exact .inl earlier
    · exact .inr (congrArg Statement.paymentCreate (List.mem_singleton.mp new).symm)

theorem contractUpdate_jobs (updated : db.execute (.contractUpdate id status hash) = some db') :
    db'.jobs = db.jobs := by
  rw [execute] at updated
  split at updated
  · obtain rfl := Option.some.inj updated
    rfl
  · contradiction

theorem jobUpdate_find {status : JobStatus} (updated : db.execute (.jobUpdate id status) = some db') :
    (db.jobs.find id).isSome = true ∧ ∀ key, db'.jobs.find key =
      if key = id then (db.jobs.find id).map (·.updated status) else db.jobs.find key := by
  rw [execute] at updated
  split at updated
  · rename_i found
    obtain rfl := Option.some.inj updated
    exact ⟨found, fun key => Table.find_modify (Job.updated_id status)⟩
  · contradiction

theorem contractOfJob_none : db.contractOfJob id = none ↔
    ∀ key row, db.contracts.find key = some row → row.jobId ≠ id := by
  unfold contractOfJob
  rw [List.find?_eq_none]
  constructor
  · intro absent key row found
    simpa using absent row (Table.mem_of_find found)
  · intro absent row member
    simpa using absent row.id row (Table.find_of_mem member)

/-- A creation takes a job that has no contract yet. -/
theorem create_job {ids : List Uuid} {data : NewContract} (created : db.create id ids data = some db') :
    db.contractOfJob data.jobId = none ∧ (db.jobs.find data.jobId).isSome = true ∧
      ∀ key, db'.jobs.find key = if key = data.jobId
        then (db.jobs.find data.jobId).map (·.updated .inProgress) else db.jobs.find key := by
  simp only [create, Option.bind_eq_bind, Option.bind_eq_some_iff] at created
  obtain ⟨_, guarded, contracts, inserted, milestones, planned, opened⟩ := created
  have possible := (Option.guard_eq_some' _).mp guarded
  obtain ⟨there, found⟩ := jobUpdate_find opened
  exact ⟨by simpa using possible.2.1, there, found⟩

end Origins

end Stellance.Backend.Db
