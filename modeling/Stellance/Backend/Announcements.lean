import Stellance.Backend.Grounds

/-! What the notifications of a contract tell, and whom. A request sends them after the write
they tell of has gone through, to the parties of the contract as it has read it. -/

namespace Stellance.Backend
open ContractsService Process

/-- The write that a notification about a contract tells of. -/
inductive Brings (id : Uuid) : NotificationType → Option Uuid → Exchange → Prop where
  | created {data : NewContract} {row : Contract} (row_id : row.id = id) :
      Brings id .contractCreated none ⟨.create data, .ok row⟩
  | funded {txHash : TxHash} {row : Contract} :
      Brings id .contractFunded none ⟨.contractUpdate id .active (some txHash), .ok row⟩
  | submitted {milestoneId : Uuid} {row : Milestone} :
      Brings id .milestoneSubmitted (some milestoneId) ⟨.milestoneUpdate milestoneId .inReview, .ok row⟩
  | paid {milestone : Milestone} {txHash : TxHash} {type : NotificationType}
      (either : type = .milestonePaid ∨ type = .milestoneApproved) :
      Brings id type (some milestone.id) ⟨.transaction (payMilestone id milestone txHash), .ok ()⟩
  | completed {row : Contract} : Brings id .contractCompleted none ⟨.contractUpdate id .completed none, .ok row⟩
  | disputed {row : Contract} : Brings id .disputeRaised none ⟨.contractUpdate id .disputed none, .ok row⟩
  | resolved {payment : Payment} (decision : String) : Brings id .disputeResolved none
      ⟨.transaction [.paymentCreate payment, .contractUpdate id (finalStatus decision) none], .ok ()⟩
  | cancelled {jobId : Uuid} {remaining : Nat} {txHash : Option TxHash} : Brings id .contractCancelled none
      ⟨.transaction (cancelStatements id jobId remaining txHash), .ok ()⟩

/-- Who a notification goes to is a party, as far as the request knows. -/
inductive Party (told : List Exchange) (id userId : Uuid) (milestone : Option Uuid) : Prop where
  | offered {data : NewContract} {row : Contract} (made : (⟨.create data, .ok row⟩ : Exchange) ∈ told)
      (row_id : row.id = id) (own : data.freelancerId = userId) (none' : milestone = none)
  | read {view : ContractView} (read : seen id view ∈ told)
      (own : userId = view.clientId ∨ userId = view.freelancerId)
      (listed : ∀ milestoneId ∈ milestone, ∃ m ∈ view.milestones, m.id = milestoneId)

/-- The request has brought about what it tells. -/
def Announced (told : List Exchange) (notification : Notification) : Prop :=
  ∃ id, notification.contractId = some id ∧ Party told id notification.userId notification.milestoneId ∧
    ∃ exchange ∈ told, Brings id notification.type notification.milestoneId exchange

/-- A request that notifies has something to tell. -/
def Heralds (told : List Exchange) (op : Op) : Prop :=
  ∀ notification, op = .notify notification → Announced told notification

/-! ### The endpoints -/

section Endpoints
variable {config : Config} {told : List Exchange} {α β : Type} {id userId : Uuid} {milestone : Option Uuid}

abbrev Heralding (told : List Exchange) (p : Request α) : Prop := p.Follows Heralds (fun _ _ => True) told

/-- The operation tells nobody. -/
def Notifies (op : Op) : Prop := ∃ notification, op = .notify notification

theorem heralds_quiet {op : Op} (quiet : ¬ Notifies op) : Heralds told op :=
  fun notification same => absurd ⟨notification, same⟩ quiet

theorem heralding_perform {op : Op} {rest : op.Answer → Request α} (quiet : ¬ Notifies op)
    (goes : ∀ value, Heralding (told ++ [⟨op, .ok value⟩]) (rest value)) :
    Heralding told (await op >>= rest) :=
  follows_perform (heralds_quiet quiet) (fun _ => trivial) goes

/-- A part that tells nobody, and what comes after it. -/
theorem heralding_past {x : Request β} {f : β → Request α} (quiet : x.Never Notifies)
    (rest : ∀ more b, Heralding (told ++ more) (f b)) : Heralding told (x >>= f) :=
  follows_past quiet (fun _ _ => heralds_quiet) (fun _ _ => trivial) rest

theorem heralding_notify {type : NotificationType} {title body : String} {rest : Unit → Request α}
    (party : Party told id userId milestone) {exchange : Exchange} (member : exchange ∈ told)
    (brings : Brings id type milestone exchange)
    (goes : ∀ more, Heralding (told ++ more) (rest ())) :
    Heralding told (notify userId type title body id milestone >>= rest) := by
  refine follows_perform ?_ (fun _ => trivial) fun _ => goes _
  rintro _ ⟨⟩
  exact ⟨id, rfl, party, exchange, member, brings⟩

theorem Party.more (party : Party told id userId milestone) (more : List Exchange) :
    Party (told ++ more) id userId milestone := by
  cases party with
  | offered made row_id own none' => exact .offered (List.mem_append_left _ made) row_id own none'
  | read read own listed => exact .read (List.mem_append_left _ read) own listed

theorem read_party {view : ContractView} (read : seen id view ∈ told)
    (own : userId = view.clientId ∨ userId = view.freelancerId)
    (listed : ∀ milestoneId ∈ milestone, ∃ m ∈ view.milestones, m.id = milestoneId) :
    Party told id userId milestone := .read read own listed

/-- Two notifications of one event. -/
theorem heralding_both {type : NotificationType} {title title' body body' : String} {userId' : Uuid}
    {rest : Request α} (party : Party told id userId milestone) (party' : Party told id userId' milestone)
    {exchange : Exchange} (member : exchange ∈ told) (brings : Brings id type milestone exchange)
    (goes : ∀ more, Heralding (told ++ more) rest) :
    Heralding told (notify userId type title body id milestone >>= fun _ =>
      notify userId' type title' body' id milestone >>= fun _ => rest) := by
  refine heralding_notify party member brings fun more => ?_
  refine heralding_notify (party'.more more) (List.mem_append_left _ member) brings fun more' => ?_
  rw [List.append_assoc]
  exact goes _

theorem heralding_getContract {rest : ContractView → Request α}
    (goes : ∀ view, Heralding (told ++ [seen id view]) (rest view)) :
    Heralding told (getContractOrThrow id >>= rest) := by
  rw [getContractOrThrow, Process.bind_assoc]
  refine heralding_perform (by rintro ⟨_, ⟨⟩⟩) fun found => ?_
  refine follows_orThrow (fun _ => trivial) ?_
  rintro view rfl
  exact goes view

theorem heralding_throwIf {condition : Prop} [Decidable condition] {e : Failure} {rest : Unit → Request α}
    (passed : Heralding told (rest ())) : Heralding told (throwIf condition e >>= rest) :=
  follows_throwIf (fun _ => trivial) fun _ => passed

theorem heralding_orThrow {value : Option β} {e : Failure} {rest : β → Request α}
    (passed : ∀ b, value = some b → Heralding told (rest b)) : Heralding told (orThrow value e >>= rest) :=
  follows_orThrow (fun _ => trivial) passed

theorem heralding_map {x : Request β} {f : β → α} (first : Heralding told x) : Heralding told (f <$> x) :=
  follows_map first

theorem query_tells (asked : Query) : ¬ Notifies (.query asked) := by
  rintro ⟨_, ⟨⟩⟩

theorem submit_tells (signer : Address) (call : ChainCall) : ¬ Notifies (.submit signer call) := by
  rintro ⟨_, ⟨⟩⟩

/-- A call signed by the admin key tells nobody. -/
theorem quiet_admin {call : Address → ChainCall} : (do
    let admin ← EscrowService.getAdminPublicKey config
    EscrowService.submitAdminInvocation config (call admin)).Never Notifies :=
  never_bind never_orThrow fun _ => submitAdmin_never fun _ => submit_tells _ _

theorem create_heralds {clientId : Uuid} {dto : CreateContractDto} :
    Heralding [] (handle config (.create clientId dto)) := by
  apply heralding_map
  unfold create
  refine heralding_perform (by rintro ⟨_, ⟨⟩⟩) fun found => ?_
  refine heralding_orThrow ?_
  rintro ⟨job, existing⟩ _
  refine heralding_throwIf (heralding_throwIf (heralding_throwIf ?_))
  refine heralding_perform (by rintro ⟨_, ⟨⟩⟩) fun freelancer => ?_
  refine heralding_orThrow fun freelancer _ => ?_
  refine heralding_perform (by rintro ⟨_, ⟨⟩⟩) fun client => ?_
  refine heralding_orThrow fun client _ => heralding_throwIf ?_
  refine heralding_perform (by rintro ⟨_, ⟨⟩⟩) fun contract => ?_
  have made : ∀ told : List Exchange, (⟨.create (dto.newContract clientId), .ok contract⟩ : Exchange) ∈
      told ++ [⟨.create (dto.newContract clientId), .ok contract⟩] :=
    fun _ => List.mem_append_right _ List.mem_cons_self
  refine heralding_notify (.offered (made _) rfl rfl rfl) (made _) (.created rfl) fun _ => ?_
  refine heralding_past (fundXdr_never fun _ => by rintro ⟨_, ⟨⟩⟩) fun _ _ => ?_
  exact heralding_past (findOne_never query_tells) fun _ _ => trivial

theorem confirmFund_heralds {callerId : Uuid} {txHash : TxHash} :
    Heralding [] (handle config (.confirmFund id callerId txHash)) := by
  apply heralding_map
  unfold confirmFund
  refine heralding_getContract fun view => ?_
  refine heralding_throwIf (heralding_throwIf (heralding_throwIf ?_))
  refine heralding_past (verify_never (by rintro ⟨_, ⟨⟩⟩)) fun _ _ => ?_
  refine heralding_perform (by rintro ⟨_, ⟨⟩⟩) fun row => ?_
  refine heralding_both ?_ ?_ (List.mem_append_right _ List.mem_cons_self) .funded fun _ => trivial
  · exact read_party (by simp) (.inr rfl) nofun
  · exact read_party (by simp) (.inl rfl) nofun

theorem submitMilestone_heralds {milestoneId callerId : Uuid} :
    Heralding [] (handle config (.submitMilestone id milestoneId callerId)) := by
  apply heralding_map
  unfold submitMilestone
  refine heralding_getContract fun view => ?_
  refine heralding_throwIf (heralding_throwIf (heralding_orThrow fun milestone listed => ?_))
  refine heralding_throwIf (heralding_perform (by rintro ⟨_, ⟨⟩⟩) fun row => ?_)
  refine heralding_notify ?_ (List.mem_append_right _ List.mem_cons_self) .submitted fun _ => trivial
  refine read_party (by simp) (.inl rfl) ?_
  rintro _ ⟨⟩
  exact ⟨milestone, List.mem_of_find?_eq_some listed, by simpa using List.find?_some listed⟩

theorem approveMilestone_heralds {milestoneId callerId : Uuid} :
    Heralding [] (handle config (.approveMilestone id milestoneId callerId)) := by
  apply heralding_map
  unfold approveMilestone
  refine heralding_getContract fun view => ?_
  refine heralding_throwIf (heralding_throwIf (heralding_orThrow fun milestone listed => ?_))
  refine heralding_throwIf (heralding_orThrow fun stroops _ => heralding_past ?_ fun more txHash => ?_)
  · unfold EscrowService.submitReleaseMilestone
    exact never_bind never_orThrow fun _ => never_bind never_orThrow fun _ => submitAdmin_never fun _ => submit_tells _ _
  obtain rfl : milestone.id = milestoneId := by simpa using List.find?_some listed
  have party : ∀ {told : List Exchange} {userId : Uuid} {about : Option Uuid}, seen id view ∈ told →
      userId = view.clientId ∨ userId = view.freelancerId →
      (∀ milestoneId ∈ about, milestone.id = milestoneId) → Party told id userId about := by
    intro told userId about read own same
    exact .read read own fun _ asked => ⟨milestone, List.mem_of_find?_eq_some listed, same _ asked⟩
  unfold recordApproval
  refine heralding_perform (by rintro ⟨_, ⟨⟩⟩) fun _ => ?_
  have finish : ∀ told : List Exchange, seen id view ∈ told →
      (⟨.transaction (payMilestone id milestone txHash), .ok ()⟩ : Exchange) ∈ told →
      Heralding told (notify view.freelancerId .milestonePaid "Payment released 🎉"
          ("\"" ++ milestone.title ++ "\" approved — " ++ toFixed2 config milestone.amount ++
            " XLM has been released to your wallet (tx: " ++ shortHash txHash ++ "…).")
          id (some milestone.id) >>= fun _ =>
        notify view.clientId .milestoneApproved "Milestone approved"
          ("You approved \"" ++ milestone.title ++ "\" on contract \"" ++ view.job.title ++
            "\". Payment sent on Stellar.") id (some milestone.id) >>= fun _ =>
        await (.query (.milestone milestone.id))) := by
    intro told read paid
    refine heralding_notify (party read (.inr rfl) fun _ => Option.some.inj) paid (.paid (.inl rfl)) fun more => ?_
    refine heralding_notify ((party read (.inl rfl) fun _ => Option.some.inj).more more)
      (List.mem_append_left _ paid) (.paid (.inr rfl)) fun _ => ?_
    exact ⟨heralds_quiet (by rintro ⟨_, ⟨⟩⟩), fun answer => by cases answer <;> trivial⟩
  unfold maybeCompleteContract
  rw [Process.bind_assoc]
  refine heralding_getContract fun after => ?_
  split
  · rw [Process.bind_assoc]
    refine heralding_perform (by rintro ⟨_, ⟨⟩⟩) fun row => ?_
    simp only [Process.bind_assoc]
    refine heralding_both ?_ ?_ (List.mem_append_right _ List.mem_cons_self) .completed fun _ => ?_
    · exact read_party (by simp) (.inr rfl) nofun
    · exact read_party (by simp) (.inl rfl) nofun
    · exact finish _ (by simp) (by simp)
  · exact finish _ (by simp) (by simp)

theorem dispute_heralds {callerId : Uuid} : Heralding [] (handle config (.dispute id callerId)) := by
  apply heralding_map
  unfold dispute
  refine heralding_getContract fun view => ?_
  refine follows_throwIf (fun _ => trivial) fun parties => ?_
  refine heralding_throwIf ?_
  have record : ∀ (more : List Exchange) (userId : Uuid) (body body' : String),
      (userId = view.clientId ∨ userId = view.freelancerId) →
      Heralding ([seen id view] ++ more) (await (.contractUpdate id .disputed none) >>= fun updated =>
        notify userId .disputeRaised "Dispute raised on your contract" body id none >>= fun _ =>
          notify callerId .disputeRaised "Dispute submitted" body' id none >>= fun _ => pure updated) := by
    intro more userId body body' other
    refine heralding_perform (by rintro ⟨_, ⟨⟩⟩) fun updated => ?_
    refine heralding_both ?_ ?_ (List.mem_append_right _ List.mem_cons_self) .disputed fun _ => trivial
    · exact read_party (by simp) other nofun
    · exact read_party (by simp) ((not_and_or.mp parties).imp (fun same => (not_not.mp same).symm)
        fun same => (not_not.mp same).symm) nofun
  have other : (if callerId = view.clientId then view.freelancerId else view.clientId) = view.clientId ∨
      (if callerId = view.clientId then view.freelancerId else view.clientId) = view.freelancerId := by
    split
    · exact .inr rfl
    · exact .inl rfl
  by_cases confirmed : view.escrowTxHash.isSome = true
  · rw [if_pos confirmed]
    exact heralding_past quiet_admin fun more _ => record more _ _ _ other
  · rw [if_neg confirmed]
    exact record [] _ _ _ other

theorem resolveDispute_heralds {role : UserRole} {dto : ResolveDisputeDto} :
    Heralding [] (handle config (.resolveDispute id role dto)) := by
  apply heralding_map
  unfold resolveDispute
  refine heralding_throwIf (heralding_getContract fun view => ?_)
  refine heralding_throwIf (heralding_orThrow fun decision _ => heralding_past ?_ fun more txHash => ?_)
  · unfold EscrowService.submitResolveDispute
    exact never_bind never_orThrow fun _ => never_bind never_orThrow fun _ => submitAdmin_never fun _ => submit_tells _ _
  refine heralding_past (remaining_never query_tells) fun more' remaining => ?_
  refine heralding_orThrow fun amount _ => ?_
  refine heralding_perform (by rintro ⟨_, ⟨⟩⟩) fun _ => ?_
  refine heralding_both ?_ ?_ (List.mem_append_right _ List.mem_cons_self) (.resolved dto.decision) fun _ => trivial
  · exact read_party (by simp) (.inl rfl) nofun
  · exact read_party (by simp) (.inr rfl) nofun

theorem cancel_heralds {callerId : Uuid} {role : UserRole} :
    Heralding [] (handle config (.cancel id callerId role)) := by
  apply heralding_map
  unfold cancel
  refine heralding_getContract fun view => ?_
  refine heralding_throwIf (heralding_throwIf (heralding_throwIf ?_))
  have record : ∀ (more : List Exchange) (txHash : Option TxHash) (body body' : String),
      Heralding ([seen id view] ++ more) (remainingAmount config id >>= fun remaining =>
        refundedAmount config txHash remaining >>= fun amount =>
        await (.transaction (cancelStatements id view.job.id amount txHash)) >>= fun _ =>
          notify view.freelancerId .contractCancelled "Contract cancelled" body id none >>= fun _ =>
            notify view.clientId .contractCancelled "Contract cancelled" body' id none >>= fun _ => pure txHash) := by
    intro more txHash body body'
    refine heralding_past (remaining_never query_tells) fun more' remaining => ?_
    refine heralding_past refundedAmount_never fun more'' amount => ?_
    refine heralding_perform (by rintro ⟨_, ⟨⟩⟩) fun _ => ?_
    refine heralding_both ?_ ?_ (List.mem_append_right _ List.mem_cons_self) .cancelled fun _ => trivial
    · exact read_party (by simp) (.inr rfl) nofun
    · exact read_party (by simp) (.inl rfl) nofun
  by_cases confirmed : view.escrowTxHash.isSome = true
  · rw [if_pos confirmed]
    exact heralding_past (never_map quiet_admin) fun more txHash => record more txHash _ _
  · rw [if_neg confirmed]
    exact record [] none _ _

theorem handle_heralds (config : Config) (endpoint : Endpoint) : Heralding [] (handle config endpoint) := by
  cases endpoint with
  | create => exact create_heralds
  | confirmFund => exact confirmFund_heralds
  | submitMilestone => exact submitMilestone_heralds
  | approveMilestone => exact approveMilestone_heralds
  | dispute => exact dispute_heralds
  | resolveDispute => exact resolveDispute_heralds
  | cancel => exact cancel_heralds

end Endpoints

/-! ### In a run -/

/-- It has come about, what a notification of the type tells of the contract and the milestone. -/
def Happened (db : Db) (id : Uuid) (type : NotificationType) (milestone : Option Uuid) : Prop :=
  match type with
  | .contractCreated => db.contractStatus id = some .pending
  | .contractFunded => ∃ row, db.contracts.find id = some row ∧ row.status = .active ∧ row.escrowTxHash.isSome = true
  | .contractCompleted => db.contractStatus id = some .completed
  | .contractCancelled => db.contractStatus id = some .cancelled
  | .disputeRaised => db.contractStatus id = some .disputed
  | .disputeResolved => db.contractStatus id = some .completed ∨ db.contractStatus id = some .cancelled
  | .milestoneSubmitted => ∃ milestoneId, milestone = some milestoneId ∧ db.milestoneStatus milestoneId = some .inReview
  | .milestonePaid | .milestoneApproved => ∃ milestoneId, milestone = some milestoneId ∧
      db.milestoneStatus milestoneId = some .paid ∧
      ∃ payment ∈ db.payments.rows, payment.contractId = id ∧ payment.milestoneId = some milestoneId

/-- The parties of a contract, which nothing writes. -/
def partiesColumn (id : Uuid) : Column (Uuid × Uuid) where
  value db := (db.contracts.find id).map fun row => (row.clientId, row.freelancerId)
  written _ := none
  writes _ := nofun
  keeps := by
    intro db statement db' parties executed _ held
    cases statement with
    | contractUpdate key status hash =>
      obtain ⟨row, found, stored, others, _⟩ := Db.contractUpdate_some executed
      by_cases here : id = key
      · subst here
        rw [found] at held
        rw [stored]
        exact held
      · rw [others id here]
        exact held
    | milestoneUpdate => rw [(Db.milestoneUpdate_some executed).1, held]
    | jobUpdate => rw [(Db.jobUpdate_some executed).1, held]
    | paymentCreate => rw [(Db.paymentCreate_some executed).1, held]
  created := by
    intro db db' key ids data parties created held
    obtain ⟨_, absent, _, others, _⟩ := Db.create_some created
    rw [others id, held]
    rintro rfl
    rw [absent] at held
    contradiction
  elsewhere _ _ _ _ := rfl

section Run
variable {τ : Type} {host : Escrow.Host Address τ} {config : Config} {faults : Prop}
  {start service service' : Service τ} {history : List (Service τ × Occurrence)} {index : Nat} {id : Uuid}
  {type : NotificationType} {milestone : Option Uuid}

/-- After the write, what is told of it is so. -/
theorem brings_happened {op : Op} {value : op.Answer}
    (step : Service.Step host config faults service (.served index op (.ok value)) service')
    (brings : Brings id type milestone ⟨op, .ok value⟩) : Happened service'.world.db id type milestone := by
  cases brings with
  | created row_id =>
    cases step with
    | served _ answered =>
      cases answered with
      | created created stored =>
        obtain ⟨_, _, stored', _⟩ := Db.create_some created
        have drawn := (Table.key_of_find stored).symm.trans row_id
        rw [Happened, Db.contractStatus, ← drawn, stored']
        rfl
  | funded =>
    cases step with
    | served _ answered =>
      cases answered with
      | contractUpdated updated =>
        obtain ⟨row, _, stored, _⟩ := Db.contractUpdate_some updated
        exact ⟨_, stored, rfl, rfl⟩
  | submitted => exact ⟨_, rfl, (milestoneColumn _).step_writes step (if_pos rfl)⟩
  | @paid m txHash _ either =>
    have status := (milestoneColumn m.id).step_writes step (payMilestone_written.trans (if_pos rfl))
    have recorded : ∃ payment ∈ service'.world.db.payments.rows, payment.contractId = id ∧
        payment.milestoneId = some m.id := by
      cases step with
      | served _ answered =>
        cases answered with
        | committed executed =>
          obtain ⟨_, _, _, _, payments, _⟩ := Db.payMilestone_some executed
          refine ⟨⟨id, some m.id, m.amount, txHash⟩, ?_, rfl, rfl⟩
          rw [payments]
          exact List.mem_append_right _ (List.mem_singleton_self _)
    rcases either with rfl | rfl
    · exact ⟨m.id, rfl, status, recorded⟩
    · exact ⟨m.id, rfl, status, recorded⟩
  | completed => exact (statusColumn id).step_writes step (if_pos rfl)
  | disputed => exact (statusColumn id).step_writes step (if_pos rfl)
  | resolved decision =>
    have written := (statusColumn id).step_writes step
      (show (statusColumn id).writtenAll _ = some (finalStatus decision) by
        simp [Column.writtenAll, statusColumn, Statement.contractStatus])
    unfold finalStatus at written
    split at written
    · exact .inr written
    · exact .inl written
  | @cancelled _ _ txHash =>
    refine (statusColumn id).step_writes step (show (statusColumn id).writtenAll _ = some .cancelled from ?_)
    unfold Column.writtenAll cancelStatements statusColumn Statement.contractStatus
    cases txHash <;> simp

theorem Brings.ok {exchange : Exchange} (brings : Brings id type milestone exchange) :
    ∃ op value, exchange = ⟨op, .ok value⟩ := by
  cases brings <;> exact ⟨_, _, rfl⟩

/-- A party as the request knows it is a party in the database, and so are the milestones. -/
theorem party_there {n : Nat} {userId : Uuid} {point : Service τ × Occurrence}
    (run : Runs.Run (Service.Step host config faults) start history service) (here : history[n]? = some point)
    (party : Party (told index (history.take n)) id userId milestone) :
    (∃ row, point.1.world.db.contracts.find id = some row ∧ (userId = row.clientId ∨ userId = row.freelancerId)) ∧
      ∀ milestoneId ∈ milestone, ∃ m, point.1.world.db.milestones.find milestoneId = some m ∧ m.contractId = id := by
  have stay : ∀ {from' : Service τ} {history' : List (Service τ × Occurrence)} (parties : Uuid × Uuid),
      Runs.Run (Service.Step host config faults) from' history' point.1 →
      (partiesColumn id).value from'.world.db = some parties → userId = parties.1 ∨ userId = parties.2 →
      ∃ row, point.1.world.db.contracts.find id = some row ∧ (userId = row.clientId ∨ userId = row.freelancerId) := by
    intro from' history' parties run held own
    obtain ⟨row, stored, same⟩ := Option.map_eq_some_iff.mp (Column.run_unwritten run (fun _ => rfl) held)
    obtain rfl := same
    exact ⟨row, stored, own⟩
  cases party with
  | @offered data row made row_id own none' =>
    obtain ⟨m, before, earlier, at'⟩ := told_take made
    obtain ⟨after, step, rest⟩ := run.between at' here before
    refine ⟨stay (data.clientId, data.freelancerId) rest ?_ (.inr own.symm), fun _ asked => ?_⟩
    · cases step with
      | served _ answered =>
        cases answered with
        | created created stored =>
          obtain ⟨_, _, stored', _⟩ := Db.create_some created
          have drawn := (Table.key_of_find stored).symm.trans row_id
          change (Table.find _ id).map _ = _
          rw [← drawn, stored']
          rfl
    · rw [none'] at asked
      contradiction
  | @read view read own listed =>
    obtain ⟨m, before, earlier, at'⟩ := told_take read
    obtain ⟨after, step, rest⟩ := run.between at' here before
    have answer := read_answer step rfl
    obtain ⟨stored, milestones, _⟩ := Db.contractView_some (answer.symm : earlier.world.db.contractView id = some view)
    refine ⟨stay (view.clientId, view.freelancerId) (.head step rest) ?_ own, fun milestoneId asked => ?_⟩
    · change (Table.find _ id).map _ = _
      rw [stored]
      rfl
    · obtain ⟨m, member, rfl⟩ := listed milestoneId asked
      rw [milestones] at member
      obtain ⟨kept, place⟩ := Db.mem_milestonesOf.mp member
      obtain ⟨m', found, place', _⟩ := run_places (.head step rest) m m.id (Table.find_of_mem kept)
      exact ⟨m', found, place'.trans place⟩

/-- Whatever runs at the same time, each notification about a contract goes to a party of that
contract, names none but milestones of it, and tells of something that had come about in the
database by then. -/
theorem notifications_truthful (run : Runs.Run (Service.Step host config faults) start history service)
    (idle : start.running = []) :
    ∀ (n index : Nat) (point : Service τ) (notification : Notification) (answer : Except Failure Unit),
      history[n]? = some (point, .served index (.notify notification) answer) →
      ∃ id, notification.contractId = some id ∧
        (∃ row, point.world.db.contracts.find id = some row ∧
          (notification.userId = row.clientId ∨ notification.userId = row.freelancerId)) ∧
        (∀ milestoneId ∈ notification.milestoneId, ∃ m, point.world.db.milestones.find milestoneId = some m ∧
          m.contractId = id) ∧
        ∃ m after, m < n ∧ Runs.Run (Service.Step host config faults) start (history.take (m + 1)) after ∧
          Runs.Run (Service.Step host config faults) after (history.drop (m + 1)) service ∧
          Happened after.world.db id notification.type notification.milestoneId := by
  intro n index point notification answer here
  obtain ⟨endpoint, next, found, heralds⟩ := run_script run idle (handle_heralds config) here
  obtain ⟨id, about, party, exchange, member, brings⟩ := heralds notification rfl
  obtain ⟨m, before, earlier, at'⟩ := told_take member
  obtain ⟨parties, places⟩ := party_there run here party
  obtain ⟨first, after, step, rest⟩ := run.pass at'
  have reached : Runs.Run (Service.Step host config faults) start (history.take (m + 1)) after := by
    rw [List.take_add_one, at']
    exact first.tail step
  obtain ⟨op, value, rfl⟩ := brings.ok
  exact ⟨id, about, parties, places, m, after, before, reached, rest, brings_happened step brings⟩

end Run

/-- The freelancer is told of a contract on offer. -/
theorem notifications_truthful_sample : ∃ (history : List (Service (Escrow.Bank Address) × Occurrence))
    (point : Service (Escrow.Bank Address)) (notification : Notification) (row : Contract),
    history[5]? = some (point, .served 0 (.notify notification) (.ok ())) ∧
      notification.userId = Sample.freelancerId ∧ point.world.db.contracts.find Sample.contractId = some row ∧
      (notification.userId = row.clientId ∨ notification.userId = row.freelancerId) := by
  have happens : ∃ played, Sample.plays Sample.idle Sample.offer = some played ∧
      ∃ point notification, played.1[5]? = some (point, .served 0 (.notify notification) (.ok ())) ∧
        notification.userId = Sample.freelancerId ∧ notification.contractId = some Sample.contractId :=
    ⟨_, rfl, _, _, rfl, rfl, rfl⟩
  obtain ⟨⟨history, service⟩, played, point, notification, here, recipient, about⟩ := happens
  obtain ⟨id, about', ⟨row, stored, party⟩, _⟩ :=
    notifications_truthful (Sample.plays_run played) rfl _ _ _ _ _ here
  cases about.symm.trans about'
  exact ⟨history, point, notification, row, here, recipient, stored, party⟩

end Stellance.Backend
