import Stellance.Backend.Interleaving
import Stellance.Backend.Interpreter

/-! How often a milestone is paid. `approveMilestone` checks that the milestone is in
review, then has the release executed on chain, and marks the milestone paid only after
that, so nothing but the order of the requests keeps two of them from releasing. -/
namespace Stellance.Backend
open ContractsService Process

/-! ### One approval -/

/-- The contract and the milestone that a request approves. -/
def ContractsService.Endpoint.approves : Endpoint → Option (Uuid × Uuid)
  | .approveMilestone contractId milestoneId _ => some (contractId, milestoneId)
  | _ => none

def Submits : Op → Prop
  | .submit .. => True
  | _ => False

/-- The checks that an approval makes on the contract it reads. -/
def Passes (view : ContractView) (milestoneId callerId : Uuid) : Prop :=
  view.clientId = callerId ∧ view.status = .active ∧
    ∃ milestone, view.milestones.find? (·.id = milestoneId) = some milestone ∧
      milestone.status = .inReview

section Approval
variable {config : Config} {contractId milestoneId callerId : Uuid} {α : Type}

theorem never_await {op : Op} (good : ¬ Submits op) : (await op).Never Submits :=
  never_perform good

theorem never_notify {userId : Uuid} {type : NotificationType} {title body : String}
    {milestone : Option Uuid} : (notify userId type title body contractId milestone).Never Submits :=
  never_await nofun

theorem never_getContract : (getContractOrThrow contractId).Never Submits :=
  never_bind (never_await nofun) fun _ => never_orThrow

theorem never_maybeComplete : (maybeCompleteContract contractId).Never Submits := by
  refine never_bind never_getContract fun contract => ?_
  split
  · refine never_bind (never_await nofun) fun _ => ?_
    exact never_bind never_notify fun _ => never_notify
  · trivial

theorem never_recordApproval {contract : ContractView} {milestone : Milestone} {txHash : TxHash} :
    (recordApproval config contractId milestoneId contract milestone txHash).Never Submits := by
  refine never_bind (never_await nofun) fun _ => ?_
  refine never_bind never_maybeComplete fun _ => ?_
  refine never_bind never_notify fun _ => ?_
  refine never_bind never_notify fun _ => ?_
  exact never_await nofun

/-- What an approval is once it has read the contract: it submits nothing any more, or
it awaits the release of the milestone and submits nothing after that. -/
inductive Reads (config : Config) (view : ContractView) (contractId milestoneId callerId : Uuid) :
    Request α → Prop where
  | past {rest : Request α} (never : rest.Never Submits) :
      Reads config view contractId milestoneId callerId rest
  | armed {signer admin : Address} {stroops : Nat} {amount : Escrow.I128} {milestone : Milestone}
      {next : Except Failure TxHash → Request α} (passes : Passes view milestoneId callerId)
      (listed : view.milestones.find? (·.id = milestoneId) = some milestone)
      (converted : config.numbers.release milestone.amount = some stroops) (same : amount.val = stroops)
      (after : ∀ answer, (next answer).Never Submits) :
      Reads config view contractId milestoneId callerId
        (.await (.submit signer (.releaseMilestone contractId.symbol admin amount)) next)

theorem Reads.throwIf {view : ContractView} {condition : Prop} [Decidable condition] {error : Failure}
    {rest : Unit → Request α}
    (passed : ¬ condition → Reads config view contractId milestoneId callerId (rest ())) :
    Reads config view contractId milestoneId callerId (Process.throwIf condition error >>= rest) :=
  throwIf_ind (fun _ => .past trivial) passed

theorem Reads.orThrow {β : Type} {view : ContractView} {value : Option β} {error : Failure}
    {rest : β → Request α}
    (passed : ∀ b, value = some b → Reads config view contractId milestoneId callerId (rest b)) :
    Reads config view contractId milestoneId callerId (Process.orThrow value error >>= rest) :=
  orThrow_ind (fun _ => .past trivial) passed

theorem Reads.map {β : Type} {view : ContractView} {rest : Request α} {f : α → β}
    (reads : Reads config view contractId milestoneId callerId rest) :
    Reads config view contractId milestoneId callerId (f <$> rest) := by
  cases reads with
  | past never => exact .past (never_map never)
  | armed passes listed converted same after =>
    exact .armed passes listed converted same fun answer => never_map (after answer)

theorem approveMilestone_reads : ∃ go,
    approveMilestone config contractId milestoneId callerId =
      getContractOrThrow contractId >>= go ∧
    ∀ view, Reads config view contractId milestoneId callerId (go view) := by
  refine ⟨_, rfl, fun view => ?_⟩
  apply Reads.throwIf
  intro client
  apply Reads.throwIf
  intro active
  apply Reads.orThrow
  intro milestone listed
  apply Reads.throwIf
  intro inReview
  have passes : Passes view milestoneId callerId :=
    ⟨not_not.mp client, not_not.mp active, milestone, listed, not_not.mp inReview⟩
  apply Reads.orThrow
  intro stroops converted
  -- the release, with the admin key asked for once more to sign it
  unfold EscrowService.submitReleaseMilestone EscrowService.submitAdminInvocation
  simp only [bind_assoc]
  apply Reads.orThrow
  intro admin _
  apply Reads.orThrow
  intro amount fits
  apply Reads.orThrow
  intro signer _
  refine .armed passes listed converted (CheckedInt.ofInt?_eq_some.mp fits) fun answer => ?_
  cases answer with
  | error e => trivial
  | ok txHash => exact never_recordApproval

/-- The first await of an approval is its read of the contract. -/
theorem handle_reads : ∃ next,
    handle config (.approveMilestone contractId milestoneId callerId) =
      .await (.query (.contract contractId)) next ∧
    (∀ error, (next (.error error)).Never Submits) ∧ (next (.ok none)).Never Submits ∧
    ∀ view, Reads config view contractId milestoneId callerId (next (.ok (some view))) := by
  obtain ⟨go, same, reads⟩ : ∃ go, approveMilestone config contractId milestoneId callerId =
      getContractOrThrow contractId >>= go ∧ ∀ view, Reads config view contractId milestoneId callerId (go view) :=
    approveMilestone_reads
  have whole := congrArg (fun request => Response.approved <$> request) same
  refine ⟨_, whole.trans rfl, fun error => trivial, trivial, fun view => ?_⟩
  exact (reads view).map

end Approval

/-! ### Approvals in flight -/

section Phases
variable {τ : Type} {host : Escrow.Host Address τ} {config : Config} {faults : Prop} {w w' : World τ}
  {db db' : Db} {contractId milestoneId callerId : Uuid} {index : Nat} {call : ChainCall}

/-- The call releases a milestone of the contract, at its amount as it is converted. -/
def Releases (config : Config) (db : Db) (contractId milestoneId : Uuid) (call : ChainCall) : Prop :=
  ∃ row admin stroops amount, db.milestones.find milestoneId = some row ∧ row.contractId = contractId ∧
    config.numbers.release row.amount = some stroops ∧
    call = .releaseMilestone contractId.symbol admin amount ∧ amount.val = stroops

theorem Releases.kept (releases : Releases config db contractId milestoneId call)
    (places : Db.SamePlaces db db') : Releases config db' contractId milestoneId call := by
  obtain ⟨row, admin, stroops, amount, found, place, converted, released, same⟩ := releases
  obtain ⟨row', found', place', kept⟩ := places row milestoneId found
  exact ⟨row', admin, stroops, amount, found', place'.trans place, kept ▸ converted, released, same⟩

/-- How far an approval is: before its first read, awaiting its release, or past it. -/
inductive Phase (config : Config) (db : Db) (contractId milestoneId callerId : Uuid) :
    Request Response → Prop where
  | fresh : Phase config db contractId milestoneId callerId
      (handle config (.approveMilestone contractId milestoneId callerId))
  | armed {signer : Address} {call : ChainCall} {next : Except Failure TxHash → Request Response}
      (releases : Releases config db contractId milestoneId call)
      (after : ∀ answer, (next answer).Never Submits) :
      Phase config db contractId milestoneId callerId (.await (.submit signer call) next)
  | past {rest : Request Response} (never : rest.Never Submits) :
      Phase config db contractId milestoneId callerId rest

theorem Phase.kept {rest : Request Response} (places : Db.SamePlaces db db')
    (phase : Phase config db contractId milestoneId callerId rest) :
    Phase config db' contractId milestoneId callerId rest := by
  cases phase with
  | fresh => exact .fresh
  | armed releases after => exact .armed (releases.kept places) after
  | past never => exact .past never

/-- What is left of a request awaits a submission. -/
def awaitsSubmit : Request Response → Bool
  | .await (.submit ..) _ => true
  | _ => false

theorem awaitsSubmit_never {rest : Request Response} (never : rest.Never Submits) :
    awaitsSubmit rest = false := by
  unfold awaitsSubmit
  split
  · exact absurd trivial never.1
  · rfl

variable {op : Op} {answer : Except Failure op.Answer}
  {next : Except Failure op.Answer → Request Response}

/-- The first read of an approval. -/
theorem read_served
    (fresh : handle config (.approveMilestone contractId milestoneId callerId) = .await op next)
    (served : Serves host faults index w op answer w') :
    w' = w ∧ ((next answer).Never Submits ∨ ∃ view, w.db.contractView contractId = some view ∧
      (Process.Event.served index op answer : Occurrence) =
        .served index (.query (.contract contractId)) (.ok (some view)) ∧
      Reads config view contractId milestoneId callerId (next answer)) := by
  obtain ⟨next', same, failed, absent, reads⟩ : ∃ next',
      handle config (.approveMilestone contractId milestoneId callerId) =
        .await (.query (.contract contractId)) next' ∧
      (∀ error, (next' (.error error)).Never Submits) ∧ (next' (.ok none)).Never Submits ∧
      ∀ view, Reads config view contractId milestoneId callerId (next' (.ok (some view))) := handle_reads
  cases fresh.symm.trans same
  cases served with
  | unanswered error => exact ⟨rfl, .inl (failed error)⟩
  | read =>
    refine ⟨rfl, ?_⟩
    cases seen : w.db.contractView contractId with
    | none =>
      left
      rw [show w.db.answer (.contract contractId) = none from seen]
      exact absent
    | some view =>
      right
      rw [show w.db.answer (.contract contractId) = some view from seen]
      exact ⟨view, rfl, rfl, reads view⟩

theorem Phase.served (phase : Phase config w.db contractId milestoneId callerId (.await op next))
    (served : Serves host faults index w op answer w') :
    Phase config w'.db contractId milestoneId callerId (next answer) := by
  generalize whole : Process.await op next = rest at phase
  cases phase with
  | fresh =>
    obtain ⟨rfl, never | ⟨view, found, _, reads⟩⟩ := read_served whole.symm served
    · exact .past never
    · generalize next answer = rest at reads
      cases reads with
      | past never => exact .past never
      | @armed signer admin stroops amount milestone _ passes listed converted same after =>
        obtain ⟨member, here⟩ := Db.listed found listed
        obtain ⟨stored, place⟩ := Db.mem_milestonesOf.mp member
        exact .armed ⟨milestone, admin, stroops, amount, here ▸ Table.find_of_mem stored, place, converted,
          rfl, same⟩ after
  | armed releases after =>
    cases whole
    exact .past (after answer)
  | past never =>
    subst whole
    exact .past (never.2 answer)

/-- An approval that now awaits its release has just passed its checks. -/
theorem Phase.passes (phase : Phase config w.db contractId milestoneId callerId (.await op next))
    (served : Serves host faults index w op answer w') (arms : awaitsSubmit (next answer) = true) :
    handle config (.approveMilestone contractId milestoneId callerId) = .await op next ∧
      ∃ view, (Process.Event.served index op answer : Occurrence) =
          .served index (.query (.contract contractId)) (.ok (some view)) ∧
        Passes view milestoneId callerId := by
  have silent : ¬ (next answer).Never Submits := by
    intro never
    rw [awaitsSubmit_never never] at arms
    contradiction
  generalize whole : Process.await op next = rest at phase ⊢
  cases phase with
  | fresh =>
    obtain ⟨_, never | ⟨view, _, seen, reads⟩⟩ := read_served whole.symm served
    · exact absurd never silent
    · refine ⟨rfl, view, seen, ?_⟩
      generalize next answer = rest at reads silent
      cases reads with
      | past never => exact absurd never silent
      | armed passes => exact passes
  | armed releases after =>
    cases whole
    exact absurd (after answer) silent
  | past never =>
    subst whole
    exact absurd (never.2 answer) silent

theorem Phase.submits {signer : Address} {next : Except Failure TxHash → Request Response}
    (phase : Phase config db contractId milestoneId callerId (.await (.submit signer call) next)) :
    Releases config db contractId milestoneId call ∧ ∀ answer, (next answer).Never Submits := by
  generalize whole : (.await (.submit signer call) next : Request Response) = rest at phase
  cases phase with
  | fresh =>
    obtain ⟨next', same, _⟩ : ∃ next',
        handle config (.approveMilestone contractId milestoneId callerId) =
          .await (.query (.contract contractId)) next' ∧ _ := handle_reads
    cases whole.trans same
  | armed releases after =>
    cases whole
    exact ⟨releases, after⟩
  | past never =>
    subst whole
    exact absurd trivial never.1

end Phases

/-! ### Calls on behalf of a milestone -/

section Outstanding
variable {τ : Type} {host : Escrow.Host Address τ} {config : Config} {faults : Prop} {w w' : World τ}
  {service service' start : Service τ} {occurrence : Occurrence} {milestoneId : Uuid}
  {trace : List (Service τ × Occurrence)}

/-- The calls of the backend that were executed or still may be. -/
def Chain.outstanding (chain : Chain τ) : List Sent := chain.pending ++ chain.executed

/-- A submission leaves at most one call behind. -/
theorem serves_outstanding {index : Nat} {signer : Address} {call : ChainCall}
    {answer : Except Failure TxHash} (served : Serves host faults index w (.submit signer call) answer w') :
    List.Subperm w'.chain.outstanding (⟨index, signer, call⟩ :: w.chain.outstanding) := by
  cases served with
  | applied fresh succeeds =>
    apply List.Perm.subperm
    unfold Chain.outstanding Chain.execute Chain.enter
    dsimp only
    rw [if_pos succeeds, ← List.append_assoc]
    exact List.perm_append_singleton _ _
  | refused => exact (List.sublist_cons_self _ _).subperm
  | failed error fresh fails =>
    apply List.Sublist.subperm
    unfold Chain.outstanding Chain.execute Chain.enter
    dsimp only
    rw [if_neg fails]
    exact List.sublist_cons_self _ _
  | lost =>
    apply List.Perm.subperm
    unfold Chain.outstanding
    dsimp only
    rw [List.append_assoc]
    exact List.perm_middle

/-- The network settles calls, and makes none up. -/
theorem outside_outstanding (moved : Outside host w w') :
    List.Subperm w'.chain.outstanding w.chain.outstanding := by
  cases moved with
  | called | unrelated => exact List.Subperm.refl _
  | @settled index sent hash waiting fresh =>
    obtain ⟨inside, rfl⟩ := List.getElem?_eq_some_iff.mp waiting
    unfold Chain.outstanding Chain.execute Chain.enter
    dsimp only
    split
    · apply List.Perm.subperm
      rw [← List.append_assoc]
      apply (List.perm_append_singleton _ _).trans
      exact (List.getElem_cons_eraseIdx_perm inside).append_right _
    · exact (List.Sublist.append_right (List.eraseIdx_sublist _ _) _).subperm
  | expired => exact (List.Sublist.append_right (List.eraseIdx_sublist _ _) _).subperm

/-- The contract and the milestone on whose behalf a call was sent. -/
def Service.approval (service : Service τ) (sent : Sent) : Option (Uuid × Uuid) :=
  (service.running[sent.request]?.map Prod.fst).bind Endpoint.approves

def Service.sentFor (service : Service τ) (milestoneId : Uuid) (sent : Sent) : Bool :=
  (service.approval sent).any (·.2 = milestoneId)

/-- The request is an approval of the milestone, about to submit its release. -/
def armedFor (milestoneId : Uuid) (request : Endpoint × Request Response) : Bool :=
  request.1.approves.any (·.2 = milestoneId) && awaitsSubmit request.2

def Service.armed (service : Service τ) (milestoneId : Uuid) : Nat :=
  service.running.countP (armedFor milestoneId)

/-- The calls sent for a milestone that may still be executed, or were. -/
def Service.calls (service : Service τ) (milestoneId : Uuid) : Nat :=
  service.world.chain.outstanding.countP (service.sentFor milestoneId)

/-- The releases of a milestone that are about to be submitted, may still be executed,
or were. -/
def Service.underWay (service : Service τ) (milestoneId : Uuid) : Nat :=
  service.armed milestoneId + service.calls milestoneId

/-- The releases executed on behalf of a milestone. -/
def Service.executions (service : Service τ) (milestoneId : Uuid) : Nat :=
  service.world.chain.executed.countP (service.sentFor milestoneId)

/-- A request passes its checks on a milestone while a release of it is under way. -/
inductive Overlaps (config : Config) (milestoneId : Uuid) (service : Service τ) : Occurrence → Prop where
  | intro {index : Nat} {contractId callerId : Uuid} {view : ContractView}
      (reading : service.running[index]? = some (.approveMilestone contractId milestoneId callerId,
        handle config (.approveMilestone contractId milestoneId callerId)))
      (passes : Passes view milestoneId callerId) (busy : 0 < service.underWay milestoneId) :
      Overlaps config milestoneId service (.served index (.query (.contract contractId)) (.ok (some view)))

/-- A call has a known sender, and one sent for a milestone releases it. -/
structure Service.Accounted (config : Config) (service : Service τ) (sent : Sent) : Prop where
  known : sent.request < service.running.length
  releases : ∀ contractId milestoneId, service.approval sent = some (contractId, milestoneId) →
    Releases config service.world.db contractId milestoneId sent.call

/-- What holds in every run: approvals go through their phases, and every call is
accounted for. -/
structure Service.Tidy (config : Config) (service : Service τ) : Prop where
  phased : ∀ contractId milestoneId callerId rest,
    (.approveMilestone contractId milestoneId callerId, rest) ∈ service.running →
    Phase config service.world.db contractId milestoneId callerId rest
  accounted : ∀ sent ∈ service.world.chain.outstanding, service.Accounted config sent

/-- A call stays with the request that sent it. -/
theorem approval_kept (sent : Sent) (step : Service.Step host config faults service occurrence service')
    (known : sent.request < service.running.length) :
    sent.request < service'.running.length ∧ service'.approval sent = service.approval sent := by
  obtain ⟨still, same⟩ := step.request_kept known
  exact ⟨still, congrArg (·.bind Endpoint.approves) same⟩

/-- A step leaves no new call, or that of one submission. -/
theorem step_outstanding (step : Service.Step host config faults service occurrence service') :
    List.Subperm service'.world.chain.outstanding service.world.chain.outstanding ∨
      ∃ (index : Nat) (endpoint : Endpoint) (signer : Address) (call : ChainCall)
        (next : Except Failure TxHash → Request Response) (answer : Except Failure TxHash),
        service.running[index]? = some (endpoint, .await (.submit signer call) next) ∧
        service'.running = service.running.set index (endpoint, next answer) ∧
        List.Subperm service'.world.chain.outstanding
          (⟨index, signer, call⟩ :: service.world.chain.outstanding) := by
  cases step with
  | start => exact .inl (.refl _)
  | @served world running index endpoint op next answer after found answered =>
    by_cases submits : Submits op
    · cases op with
      | submit signer call =>
        exact .inr ⟨index, endpoint, signer, call, next, answer, found, rfl, serves_outstanding answered⟩
      | _ => exact submits.elim
    · left
      have same := serves_chain answered fun signer call same => submits (same ▸ trivial)
      dsimp only
      rw [same]
  | outside around =>
    cases around with
    | network moved => exact .inl (outside_outstanding moved)
    | elsewhere => exact .inl (.refl _)

theorem approves_some {endpoint : Endpoint} {contractId : Uuid}
    (approves : endpoint.approves = some (contractId, milestoneId)) :
    ∃ callerId, endpoint = .approveMilestone contractId milestoneId callerId := by
  cases endpoint with
  | approveMilestone => cases approves; exact ⟨_, rfl⟩
  | _ => contradiction

theorem step_phased (tidy : service.Tidy config)
    (step : Service.Step host config faults service occurrence service') {contractId callerId : Uuid}
    {rest : Request Response}
    (member : (.approveMilestone contractId milestoneId callerId, rest) ∈ service'.running) :
    Phase config service'.world.db contractId milestoneId callerId rest := by
  have places := step_places step
  cases step with
  | start request =>
    rcases List.mem_append.mp member with earlier | last
    · exact tidy.phased _ _ _ _ earlier
    · cases List.mem_singleton.mp last
      exact .fresh
  | served found answered =>
    rcases List.mem_or_eq_of_mem_set member with earlier | last
    · exact (tidy.phased _ _ _ _ earlier).kept places
    · cases last
      exact (tidy.phased _ _ _ _ (List.mem_of_getElem? found)).served answered
  | outside => exact (tidy.phased _ _ _ _ member).kept places

theorem accounted_kept {sent : Sent} (accounted : service.Accounted config sent)
    (step : Service.Step host config faults service occurrence service') :
    service'.Accounted config sent := by
  obtain ⟨known, same⟩ := approval_kept sent step accounted.known
  refine ⟨known, fun contractId milestoneId approves => ?_⟩
  rw [same] at approves
  exact (accounted.releases _ _ approves).kept (step_places step)

/-- The call of a submission is accounted for by the phase its request is in. -/
theorem submission_accounted {index : Nat} {endpoint : Endpoint} {signer : Address} {call : ChainCall}
    {next : Except Failure TxHash → Request Response} (tidy : service.Tidy config)
    (found : service.running[index]? = some (endpoint, .await (.submit signer call) next)) :
    service.Accounted config ⟨index, signer, call⟩ := by
  refine ⟨(List.getElem?_eq_some_iff.mp found).1, fun contractId milestoneId approves => ?_⟩
  rw [Service.approval, found] at approves
  obtain ⟨callerId, rfl⟩ := approves_some approves
  have phase := tidy.phased _ _ _ _ (List.mem_of_getElem? found)
  exact phase.submits.1

theorem step_tidy (tidy : service.Tidy config)
    (step : Service.Step host config faults service occurrence service') : service'.Tidy config := by
  refine ⟨fun _ _ _ _ member => step_phased tidy step member, fun sent member => ?_⟩
  apply accounted_kept _ step
  rcases step_outstanding step with fewer |
    ⟨index, endpoint, signer, call, next, answer, found, running, more⟩
  · exact tidy.accounted sent (fewer.subset member)
  · rcases List.mem_cons.mp (more.subset member) with rfl | earlier
    · exact submission_accounted tidy found
    · exact tidy.accounted sent earlier

theorem armedFor_some {endpoint : Endpoint} {rest : Request Response}
    (armed : armedFor milestoneId (endpoint, rest) = true) :
    ∃ contractId callerId, endpoint = .approveMilestone contractId milestoneId callerId ∧
      awaitsSubmit rest = true := by
  obtain ⟨approves, awaits⟩ := Bool.and_eq_true_iff.mp armed
  obtain ⟨⟨contractId, key⟩, approved, same⟩ := (Option.any_eq_true _ _).mp approves
  obtain rfl : key = milestoneId := by simpa using same
  obtain ⟨callerId, rfl⟩ := approves_some approved
  exact ⟨contractId, callerId, rfl, awaits⟩

/-- A step arms a milestone only where nothing else is under way for it. -/
theorem step_armed (tidy : service.Tidy config)
    (step : Service.Step host config faults service occurrence service')
    (quiet : ¬ Overlaps config milestoneId service occurrence) :
    service'.armed milestoneId ≤ service.armed milestoneId ∨
      service.underWay milestoneId = 0 ∧ service'.armed milestoneId ≤ service.armed milestoneId + 1 := by
  cases step with
  | start request =>
    left
    have unarmed : ¬ armedFor milestoneId (request, handle config request) = true := by
      intro armed
      obtain ⟨contractId, callerId, rfl, awaits⟩ := armedFor_some armed
      obtain ⟨next, same, _⟩ : ∃ next,
          handle config (.approveMilestone contractId milestoneId callerId) =
            .await (.query (.contract contractId)) next ∧ _ := handle_reads
      rw [same] at awaits
      contradiction
    unfold Service.armed
    dsimp only
    rw [List.countP_append, List.countP_singleton, if_neg unarmed]
    exact le_rfl
  | @served world running index endpoint op next answer after found answered =>
    have counted := countP_replaced (armedFor milestoneId) found (endpoint, next answer)
    unfold Service.underWay Service.armed
    dsimp only
    by_cases arms : armedFor milestoneId (endpoint, next answer) = true
    · right
      obtain ⟨contractId, callerId, rfl, awaits⟩ := armedFor_some arms
      have phase := tidy.phased _ _ _ _ (List.mem_of_getElem? found)
      obtain ⟨fresh, view, seen, passes⟩ := phase.passes answered awaits
      rw [← fresh] at found
      rw [seen] at quiet
      rw [if_pos arms] at counted
      have idle : ¬ 0 < Service.underWay ⟨world, running⟩ milestoneId :=
        fun busy => quiet (.intro found passes busy)
      exact ⟨Nat.eq_zero_of_not_pos idle, by omega⟩
    · left
      rw [if_neg arms] at counted
      omega
  | outside => exact .inl le_rfl

/-- A step adds a call for a milestone only where it disarms one of its approvals. -/
theorem step_calls (tidy : service.Tidy config)
    (step : Service.Step host config faults service occurrence service') :
    service'.calls milestoneId ≤ service.calls milestoneId ∨
      service'.calls milestoneId ≤ service.calls milestoneId + 1 ∧
        service'.armed milestoneId + 1 = service.armed milestoneId := by
  have same : service.world.chain.outstanding.countP (service'.sentFor milestoneId) =
      service.calls milestoneId := by
    apply List.countP_congr
    intro sent member
    unfold Service.sentFor
    rw [(approval_kept sent step (tidy.accounted sent member).known).2]
  rcases step_outstanding step with fewer |
    ⟨index, endpoint, signer, call, next, answer, found, running, more⟩
  · exact .inl (same ▸ fewer.countP_le _)
  · have counted := more.countP_le (service'.sentFor milestoneId)
    rw [List.countP_cons, same] at counted
    have inside : index < service.running.length := (List.getElem?_eq_some_iff.mp found).1
    have approves : service'.approval ⟨index, signer, call⟩ = endpoint.approves := by
      rw [(approval_kept ⟨index, signer, call⟩ step inside).2, Service.approval, found]
      rfl
    by_cases sent : service'.sentFor milestoneId ⟨index, signer, call⟩ = true
    · right
      rw [if_pos sent] at counted
      refine ⟨counted, ?_⟩
      have replaced := countP_replaced (armedFor milestoneId) found (endpoint, next answer)
      have was : armedFor milestoneId (endpoint, .await (.submit signer call) next) = true := by
        rw [Service.sentFor, approves] at sent
        exact Bool.and_eq_true_iff.mpr ⟨sent, rfl⟩
      obtain ⟨contractId, callerId, rfl, _⟩ := armedFor_some was
      have phase := tidy.phased _ _ _ _ (List.mem_of_getElem? found)
      have now : ¬ armedFor milestoneId
          (.approveMilestone contractId milestoneId callerId, next answer) = true := by
        intro armed
        obtain ⟨_, _, _, awaits⟩ := armedFor_some armed
        rw [awaitsSubmit_never (phase.submits.2 answer)] at awaits
        contradiction
      unfold Service.armed
      rw [running]
      rw [if_pos was, if_neg now] at replaced
      exact replaced
    · left
      rw [if_neg sent] at counted
      exact counted

/-- Without overlaps a milestone has at most one release under way, ever. -/
theorem step_underWay (tidy : service.Tidy config)
    (step : Service.Step host config faults service occurrence service')
    (quiet : ¬ Overlaps config milestoneId service occurrence)
    (once : service.underWay milestoneId ≤ 1) : service'.underWay milestoneId ≤ 1 := by
  unfold Service.underWay at once ⊢
  have calls : service'.calls milestoneId ≤ service.calls milestoneId ∨ _ := step_calls tidy step
  have armed := step_armed tidy step quiet
  unfold Service.underWay at armed
  omega

/-- No request yet, and no call of the backend. -/
structure Service.Idle (service : Service τ) : Prop where
  running : service.running = []
  pending : service.world.chain.pending = []
  executed : service.world.chain.executed = []

theorem Service.Idle.outstanding (idle : service.Idle) : service.world.chain.outstanding = [] := by
  unfold Chain.outstanding
  rw [idle.pending, idle.executed]
  rfl

theorem Service.Idle.tidy (idle : service.Idle) : service.Tidy config := by
  constructor
  · intro contractId milestoneId callerId rest member
    rw [idle.running] at member
    contradiction
  · intro sent member
    rw [idle.outstanding] at member
    contradiction

theorem run_tidy (run : Runs.Run (Service.Step host config faults) start trace service)
    (idle : start.Idle) : service.Tidy config :=
  run.invariant step_tidy idle.tidy

theorem run_underWay (run : Runs.Run (Service.Step host config faults) start trace service)
    (idle : start.Idle)
    (quiet : ∀ point ∈ trace, ¬ Overlaps config milestoneId point.1 point.2) :
    service.underWay milestoneId ≤ 1 := by
  have keeps : ∀ {before : Service τ} {occurrence after},
      before.Tidy config ∧ before.underWay milestoneId ≤ 1 →
      ¬ Overlaps config milestoneId before occurrence →
      Service.Step host config faults before occurrence after →
      after.Tidy config ∧ after.underWay milestoneId ≤ 1 := by
    rintro before occurrence after ⟨tidy, once⟩ quiet step
    exact ⟨step_tidy tidy step, step_underWay tidy step quiet once⟩
  have initial : start.underWay milestoneId ≤ 1 := by
    unfold Service.underWay Service.armed Service.calls
    rw [idle.running, idle.outstanding]
    exact Nat.zero_le 1
  exact (run.invariant_of (fun service => service.Tidy config ∧ service.underWay milestoneId ≤ 1)
    (fun service occurrence => ¬ Overlaps config milestoneId service occurrence) keeps quiet
    ⟨idle.tidy, initial⟩).2

theorem executions_le (service : Service τ) (milestoneId : Uuid) :
    service.executions milestoneId ≤ service.underWay milestoneId := by
  have part : service.executions milestoneId ≤ service.calls milestoneId :=
    (List.sublist_append_right _ _).countP_le
  exact part.trans (Nat.le_add_left _ _)

/-! ### What was released -/

/-- What a release releases. -/
def releasedAmount : ChainCall → Int
  | .releaseMilestone _ _ amount => amount.val
  | _ => 0

/-- The tokens released on behalf of the milestones of a contract. -/
def Service.releasedUnder (service : Service τ) (contractId : Uuid) : Int :=
  ((service.world.chain.executed.filter fun sent =>
    (service.approval sent).any (·.1 = contractId)).map fun sent => releasedAmount sent.call).sum

/-- What is released for a milestone, in stroops. -/
def Milestone.released (numbers : Numbers) (m : Milestone) : Nat := (numbers.release m.amount).getD 0

/-- The milestones of a contract that were released. -/
def Service.releasedMilestones (service : Service τ) (contractId : Uuid) : List Milestone :=
  (service.world.db.milestonesOf contractId).filter fun m => 0 < service.executions m.id

/-- The milestone a call was sent for, as it is stored. -/
def Service.milestone (service : Service τ) (sent : Sent) : Option Milestone :=
  (service.approval sent).bind fun approval => service.world.db.milestones.find approval.2

theorem executed_milestone {contractId : Uuid} {sent : Sent} (tidy : service.Tidy config)
    (member : sent ∈ service.world.chain.executed.filter fun sent =>
      (service.approval sent).any (·.1 = contractId)) :
    ∃ row ∈ service.world.db.milestonesOf contractId, service.milestone sent = some row ∧
      service.sentFor row.id sent = true ∧ releasedAmount sent.call = row.released config.numbers := by
  obtain ⟨executed, approved⟩ := List.mem_filter.mp member
  obtain ⟨⟨key, milestoneId⟩, approval, same⟩ := (Option.any_eq_true _ _).mp approved
  obtain rfl : key = contractId := by simpa using same
  obtain ⟨row, admin, stroops, amount, found, place, converted, call, same⟩ :=
    (tidy.accounted sent (List.mem_append_right _ executed)).releases _ _ approval
  refine ⟨row, Db.mem_milestonesOf.mpr ⟨Table.mem_of_find found, place⟩, ?_, ?_, ?_⟩
  · unfold Service.milestone
    rw [approval]
    exact found
  · unfold Service.sentFor
    rw [approval, Table.key_of_find found]
    simp
  · rw [call, Milestone.released, converted]
    exact same

/-- Where every milestone of a contract was released once at most, no more was released than
the milestones that were are converted to. -/
theorem released_le {contractId : Uuid} (tidy : service.Tidy config)
    (once : ∀ m ∈ service.world.db.milestonesOf contractId, service.executions m.id ≤ 1) :
    service.releasedUnder contractId ≤
      ((service.releasedMilestones contractId).map (Milestone.released config.numbers)).sum := by
  let sends := service.world.chain.executed.filter fun sent =>
    (service.approval sent).any (·.1 = contractId)
  have whose : ∀ sent ∈ sends, ∃ row ∈ service.world.db.milestonesOf contractId,
      service.milestone sent = some row ∧ service.sentFor row.id sent = true ∧
        releasedAmount sent.call = row.released config.numbers := fun sent member => executed_milestone tidy member
  let rows := sends.filterMap service.milestone
  have total : service.releasedUnder contractId = ((rows.map (Milestone.released config.numbers)).sum : Nat) := by
    apply Table.sum_filterMap
    intro sent member
    obtain ⟨row, _, found, _, amount⟩ := whose sent member
    exact ⟨row, found, amount⟩
  have listed : ∀ row ∈ rows, row ∈ service.releasedMilestones contractId := by
    intro row member
    obtain ⟨sent, inside, found⟩ := List.mem_filterMap.mp member
    obtain ⟨row', stored, found', sentFor, _⟩ := whose sent inside
    obtain rfl := Option.some.inj (found.symm.trans found')
    refine List.mem_filter.mpr ⟨stored, decide_eq_true ?_⟩
    exact List.countP_pos_iff.mpr ⟨sent, (List.mem_filter.mp inside).1, sentFor⟩
  have unique : rows.Nodup := by
    apply List.nodup_iff_count_le_one.mpr
    intro row
    by_cases member : row ∈ rows
    · have counted : rows.count row ≤ service.executions row.id := by
        rw [List.count_filterMap]
        refine (List.countP_mono_left fun sent inside same => ?_).trans List.filter_sublist.countP_le
        obtain ⟨row', _, found, sentFor, _⟩ := whose sent inside
        obtain rfl := Option.some.inj ((eq_of_beq same).symm.trans found)
        exact sentFor
      exact counted.trans (once row (List.mem_of_mem_filter (listed row member)))
    · rw [List.count_eq_zero_of_not_mem member]
      exact Nat.zero_le 1
  obtain ⟨picked, same, part⟩ := unique.subperm listed
  rw [total, ← (same.map (Milestone.released config.numbers)).sum_eq]
  exact Int.ofNat_le.mpr ((part.map (Milestone.released config.numbers)).sum_le_sum fun _ _ => Nat.zero_le _)

/-- Without overlaps a milestone is released at most once; and a contract is released no more
than the amounts of the milestones that were, where none of its amounts is rounded up. -/
theorem released_once (run : Runs.Run (Service.Step host config faults) start trace service)
    (idle : start.Idle) :
    (∀ milestoneId, (∀ point ∈ trace, ¬ Overlaps config milestoneId point.1 point.2) →
      service.executions milestoneId ≤ 1) ∧
    ∀ contractId, (∀ m ∈ service.world.db.milestonesOf contractId,
        (∀ point ∈ trace, ¬ Overlaps config m.id point.1 point.2) ∧
        ∀ stroops, config.numbers.release m.amount = some stroops → stroops ≤ m.amount) →
      service.releasedUnder contractId ≤
        ((service.releasedMilestones contractId).map Milestone.amount).sum := by
  have once : ∀ milestoneId, (∀ point ∈ trace, ¬ Overlaps config milestoneId point.1 point.2) →
      service.executions milestoneId ≤ 1 :=
    fun milestoneId quiet => (executions_le service milestoneId).trans (run_underWay run idle quiet)
  refine ⟨once, fun contractId careful => ?_⟩
  have released := released_le (run_tidy run idle) fun m member => once m.id (careful m member).1
  refine released.trans (Int.ofNat_le.mpr (List.sum_le_sum fun m member => ?_))
  have listed := List.mem_of_mem_filter member
  cases converted : config.numbers.release m.amount with
  | none => simp [Milestone.released, converted]
  | some stroops =>
    rw [Milestone.released, converted]
    exact (careful m listed).2 stroops converted

end Outstanding

/-! ### Two approvals of one milestone -/

/-- Only the read of a contract overlaps. -/
def readsContract : Occurrence → Bool
  | .served _ (.query (.contract _)) _ => true
  | _ => false

theorem Overlaps.reads {τ : Type} {config : Config} {service : Service τ} {occurrence : Occurrence}
    {milestoneId : Uuid} (overlaps : Overlaps config milestoneId service occurrence) :
    readsContract occurrence = true ∧ 0 < service.underWay milestoneId := by
  cases overlaps with
  | intro reading passes busy => exact ⟨rfl, busy⟩

namespace Sample

/-- The contract is funded and confirmed, and its first milestone is in review. -/
def reviewed : Option (Joint (Escrow.Bank Address)) := do
  let created ← start.request host config supply (.create clientId dto)
  let funded ← created.fund host supply contractId {"client"}
  let confirmed ← funded.2.request host config supply
    (.confirmFund contractId clientId (supply.hash []))
  confirmed.request host config supply (.submitMilestone contractId milestoneId freelancerId)

def approval : Endpoint := .approveMilestone contractId milestoneId clientId

end Sample

/-- Two approvals that read the milestone before either is through both release it. -/
theorem released_twice : ¬ ∀ (start service : Service (Escrow.Bank Address))
    (trace : List (Service (Escrow.Bank Address) × Occurrence)) (milestoneId : Uuid), start.Idle →
    Runs.Run (Service.Step Sample.host Sample.config False) start trace service →
    service.executions milestoneId ≤ 1 := by
  intro always
  have happens : ∃ joint, Sample.reviewed = some joint ∧ joint.world.chain.pending = [] ∧
      joint.world.chain.executed = [] ∧
      ∃ played, Sample.plays ⟨joint.world, []⟩ [.start Sample.approval, .start Sample.approval,
        .serve 0, .serve 1, .serve 0, .serve 1] = some played ∧
      1 < played.2.executions Sample.milestoneId := by
    decide
  obtain ⟨joint, _, pending, executed, played, ran, twice⟩ := happens
  have once := always _ _ _ Sample.milestoneId ⟨rfl, pending, executed⟩ (Sample.plays_run ran)
  exact absurd twice (not_lt_of_ge once)

/-- One approval, up to its release. -/
theorem released_once_sample : ∃ service : Service (Escrow.Bank Address),
    service.executions Sample.milestoneId = 1 ∧ service.executions Sample.milestoneId ≤ 1 := by
  have happens : ∃ joint, Sample.reviewed = some joint ∧ joint.world.chain.pending = [] ∧
      joint.world.chain.executed = [] ∧
      ∃ played, Sample.plays ⟨joint.world, []⟩ [.start Sample.approval, .serve 0, .serve 0] =
        some played ∧
      (∀ point ∈ played.1,
        readsContract point.2 = false ∨ point.1.underWay Sample.milestoneId = 0) ∧
      played.2.executions Sample.milestoneId = 1 := by
    decide
  obtain ⟨joint, _, pending, executed, played, ran, quiet, one⟩ := happens
  refine ⟨played.2, one, (released_once (Sample.plays_run ran) ⟨rfl, pending, executed⟩).1 _ ?_⟩
  intro point member overlaps
  obtain ⟨reads, busy⟩ := overlaps.reads
  rcases quiet point member with silent | idle
  · rw [reads] at silent
    contradiction
  · omega

end Stellance.Backend
