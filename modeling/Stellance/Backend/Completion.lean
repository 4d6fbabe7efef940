import Stellance.Backend.Approval
import Stellance.Backend.Interpreter

/-! Completion under concurrent approvals. Each approval commits its own milestone and
only then reads them all, so the last to commit sees every milestone paid and is the one
to complete the contract, whatever the order. -/
namespace Stellance.Backend
open ContractsService Process

/-- Operations that write contracts, milestones or jobs. -/
def Changes : Op → Prop
  | .create _ | .contractUpdate .. | .milestoneUpdate .. | .transaction _ => True
  | .query _ | .notify _ | .horizon _ | .simulate _ | .submit .. => False

inductive ApprovalPhase where
  | reading
  | submitting
  | committing
  | checking
  | completing
  | past

/-- What is left of an approval, by where it stands. -/
inductive Stage {α : Type} (id : Uuid) : ApprovalPhase → Request α → Prop where
  | past {rest : Request α} (never : rest.Never Changes) : Stage id .past rest
  | completing {next : Except Failure Contract → Request α}
      (after : ∀ answer, (next answer).Never Changes) :
      Stage id .completing (.await (.contractUpdate id .completed none) next)
  | checking {next : Except Failure (Option ContractView) → Request α}
      (all : ∀ view, (∀ m ∈ view.milestones, m.status = .paid) →
        Stage id .completing (next (.ok (some view))))
      (partly : ∀ view, (¬ ∀ m ∈ view.milestones, m.status = .paid) →
        (next (.ok (some view))).Never Changes)
      (absent : (next (.ok none)).Never Changes) (failed : ∀ e, (next (.error e)).Never Changes) :
      Stage id .checking (.await (.query (.contract id)) next)
  | committing {milestone : Milestone} {hash : TxHash} {next : Except Failure Unit → Request α}
      (go : Stage id .checking (next (.ok ()))) (failed : ∀ e, (next (.error e)).Never Changes) :
      Stage id .committing (.await (.transaction (payMilestone id milestone hash)) next)
  | refused {rest : Request α} (never : rest.Never Changes) : Stage id .submitting rest
  | submitting {signer : Address} {call : ChainCall} {next : Except Failure TxHash → Request α}
      (go : ∀ hash, Stage id .committing (next (.ok hash)))
      (failed : ∀ e, (next (.error e)).Never Changes) :
      Stage id .submitting (.await (.submit signer call) next)
  | reading {next : Except Failure (Option ContractView) → Request α}
      (go : ∀ view, Stage id .submitting (next (.ok (some view))))
      (absent : (next (.ok none)).Never Changes) (failed : ∀ e, (next (.error e)).Never Changes) :
      Stage id .reading (.await (.query (.contract id)) next)

section Stages
variable {config : Config} {id milestoneId callerId : Uuid} {α β : Type} {phase : ApprovalPhase}
  {p : Request α}

theorem Stage.map (f : α → β) (stage : Stage id phase p) : Stage id phase (f <$> p) := by
  induction stage with
  | past never => exact .past (never_map never)
  | completing after => exact .completing fun answer => never_map (after answer)
  | checking all partly absent failed ih =>
    exact .checking ih (fun view unpaid => never_map (partly view unpaid)) (never_map absent)
      fun e => never_map (failed e)
  | committing go failed ih => exact .committing ih fun e => never_map (failed e)
  | submitting go failed ih => exact .submitting ih fun e => never_map (failed e)
  | refused never => exact .refused (never_map never)
  | reading go absent failed ih =>
    exact .reading ih (never_map absent) fun e => never_map (failed e)

theorem quiet_notify {userId : Uuid} {type : NotificationType} {title body : String}
    {milestone : Option Uuid} : (notify userId type title body id milestone).Never Changes :=
  never_perform not_false

theorem maybeComplete_stage {rest : Unit → Request α} (after : ∀ done, (rest done).Never Changes) :
    Stage id .checking (maybeCompleteContract id >>= rest) := by
  refine .checking (fun view paid => ?_) (fun view unpaid => ?_) trivial fun e => trivial
  · change Stage id .completing ((if ∀ m ∈ view.milestones, m.status = .paid then _ else _) >>= rest)
    rw [if_pos paid]
    refine .completing fun answer => ?_
    cases answer with
    | error e => trivial
    | ok row =>
      refine never_bind ?_ after
      refine never_bind trivial fun _ => ?_
      exact never_bind quiet_notify fun _ => quiet_notify
  · change ((if ∀ m ∈ view.milestones, m.status = .paid then _ else _) >>= rest).Never Changes
    rw [if_neg unpaid]
    exact after ()

theorem recordApproval_stage {contract : ContractView} {milestone : Milestone} {txHash : TxHash} :
    Stage id .committing (recordApproval config id milestoneId contract milestone txHash) := by
  refine .committing ?_ fun e => trivial
  refine maybeComplete_stage fun _ => ?_
  refine never_bind quiet_notify fun _ => ?_
  refine never_bind quiet_notify fun _ => ?_
  exact never_perform not_false

theorem stage_throwIf {condition : Prop} [Decidable condition] {e : Failure}
    {rest : Unit → Request α} (passed : Stage id .submitting (rest ())) :
    Stage id .submitting (throwIf condition e >>= rest) :=
  throwIf_ind (fun _ => .refused trivial) fun _ => passed

theorem stage_orThrow {value : Option β} {e : Failure} {rest : β → Request α}
    (passed : ∀ b, Stage id .submitting (rest b)) : Stage id .submitting (orThrow value e >>= rest) :=
  orThrow_ind (fun _ => .refused trivial) fun b _ => passed b

theorem getContract_stage {rest : ContractView → Request α}
    (goes : ∀ view, Stage id .submitting (rest view)) :
    Stage id .reading (getContractOrThrow id >>= rest) :=
  .reading goes trivial fun _ => trivial

theorem approveMilestone_stage :
    Stage id .reading (handle config (.approveMilestone id milestoneId callerId)) := by
  apply Stage.map
  refine getContract_stage fun view => ?_
  apply stage_throwIf
  apply stage_throwIf
  apply stage_orThrow
  intro milestone
  apply stage_throwIf
  apply stage_orThrow
  intro stroops
  unfold EscrowService.submitReleaseMilestone EscrowService.submitAdminInvocation
  simp only [bind_assoc]
  apply stage_orThrow
  intro admin
  apply stage_orThrow
  intro amount
  apply stage_orThrow
  intro signer
  exact .submitting (fun hash => recordApproval_stage) fun e => trivial

end Stages

theorem Stage.only_completing {id : Uuid} {α : Type} {p : Request α} {phase : ApprovalPhase}
    (completing : Stage id .completing p) (stage : Stage id phase p) : phase = .completing := by
  cases completing with
  | completing after =>
    cases stage with
    | past never | refused never => exact absurd trivial never.1
    | completing => rfl

/-! ### The rows of a contract -/

namespace Db

def AllPaid (db : Db) (id : Uuid) : Prop := ∀ m ∈ db.milestonesOf id, m.status = .paid

def Completed (db : Db) (id : Uuid) : Prop :=
  ∃ row, db.contracts.find id = some row ∧ row.status = .completed

structure SameRows (db db' : Db) : Prop where
  users : db'.users = db.users
  jobs : db'.jobs = db.jobs
  contracts : db'.contracts = db.contracts
  milestones : db'.milestones = db.milestones

variable {db db' : Db} {id : Uuid}

theorem SameRows.allPaid (same : SameRows db db') : db'.AllPaid id ↔ db.AllPaid id := by
  rw [AllPaid, AllPaid, milestonesOf, milestonesOf, same.milestones]

theorem SameRows.completed (same : SameRows db db') : db'.Completed id ↔ db.Completed id := by
  rw [Completed, Completed, same.contracts]

/-- A payment of one milestone leaves the others as they are. -/
theorem AllPaid.payMilestone {milestone : Milestone} {hash : TxHash} (paid : db.AllPaid id)
    (executed : db.executeAll (ContractsService.payMilestone id milestone hash) = some db') :
    db'.AllPaid id := by
  intro m member
  rw [(payMilestone_some executed).2.2.2.2.2.1 id] at member
  obtain ⟨m', inside, rfl⟩ := Milestone.mem_mark.mp member
  split
  · rfl
  · exact paid m' inside

end Db

section Served
variable {τ : Type} {host : Escrow.Host Address τ} {w w' : World τ} {index : Nat} {id : Uuid}
  {op : Op} {answer : Except Failure op.Answer} {next : Except Failure op.Answer → Request Response}
  {phase : ApprovalPhase} {view : ContractView}

theorem serves_sameRows (served : Serves host False index w op answer w') (quiet : ¬ Changes op) :
    Db.SameRows w.db w'.db := by
  cases served with
  | created | contractUpdated | milestoneUpdated | committed => exact absurd trivial quiet
  | _ => exact ⟨rfl, rfl, rfl, rfl⟩

/-- What an answer does to the rows, and where it takes the approval that gets it. -/
inductive Goes (id : Uuid) (db db' : Db) : ApprovalPhase → ApprovalPhase → Prop where
  | reads {phase phase' : ApprovalPhase} (same : Db.SameRows db db') (still : phase ≠ .completing)
      (sees : phase = .checking → db.AllPaid id → phase' = .completing)
      (saw : phase' = .completing → db.AllPaid id) : Goes id db db' phase phase'
  | pays {milestone : Milestone} {hash : TxHash}
      (executed : db.executeAll (payMilestone id milestone hash) = some db') :
      Goes id db db' .committing .checking
  | completes (updated : db.execute (.contractUpdate id .completed none) = some db') :
      Goes id db db' .completing .past

theorem never_goes (never : (Process.await op next).Never Changes)
    (served : Serves host False index w op answer w') :
    Goes id w.db w'.db .past .past :=
  .reads (serves_sameRows served never.1) (by simp) (by simp) (by simp)

theorem stage_served (stage : Stage id phase (.await op next))
    (served : Serves host False index w op answer w') (found : w.db.contractView id = some view) :
    ∃ phase', Stage id phase' (next answer) ∧ Goes id w.db w'.db phase phase' := by
  generalize whole : (.await op next : Request Response) = p at stage
  have rows := serves_sameRows served
  cases stage with
  | past never =>
    subst whole
    exact ⟨.past, .past (never.2 answer), never_goes never served⟩
  | refused never =>
    subst whole
    exact ⟨.past, .past (never.2 answer), .reads (rows never.1) (by simp) (by simp) (by simp)⟩
  | completing after =>
    cases whole
    cases served with
    | contractUpdated updated => exact ⟨.past, .past (after _), .completes updated⟩
    | rejectedContractUpdate error impossible =>
      obtain ⟨db', possible, _⟩ := Db.contractUpdate_possible .completed (Db.contractView_some found).1
      simp [possible] at impossible
  | checking all partly absent failed =>
    cases whole
    cases served with
    | read =>
      have listed := (Db.contractView_some found).2.1
      simp only [Db.answer, found]
      by_cases paid : ∀ m ∈ view.milestones, m.status = .paid
      · refine ⟨.completing, all view paid, .reads (rows not_false) (by simp) (fun _ _ => rfl) ?_⟩
        intro _
        rwa [listed] at paid
      · refine ⟨.past, .past (partly view paid), .reads (rows not_false) (by simp) ?_ (by simp)⟩
        intro _ allPaid
        rw [listed] at paid
        exact absurd allPaid paid
    | unanswered error fault => exact fault.elim
  | committing go failed =>
    cases whole
    cases served with
    | committed executed => exact ⟨.checking, go, .pays executed⟩
    | rejectedTransaction error impossible =>
      exact ⟨.past, .past (failed error), .reads ⟨rfl, rfl, rfl, rfl⟩ (by simp) (by simp) (by simp)⟩
  | submitting go failed =>
    cases whole
    cases answer with
    | ok hash => exact ⟨.committing, go hash, .reads (rows not_false) (by simp) (by simp) (by simp)⟩
    | error e => exact ⟨.past, .past (failed e), .reads (rows not_false) (by simp) (by simp) (by simp)⟩
  | reading go absent failed =>
    cases whole
    cases served with
    | read =>
      simp only [Db.answer, found]
      exact ⟨.submitting, go view, .reads (rows not_false) (by simp) (by simp) (by simp)⟩
    | unanswered error fault => exact fault.elim

/-- The contract stays in view. -/
theorem Goes.viewed {phase' : ApprovalPhase} {db db' : Db} (goes : Goes id db db' phase phase')
    (found : db.contractView id = some view) : ∃ view', db'.contractView id = some view' := by
  cases goes with
  | reads same => exact Db.contractView_kept found same.contracts same.jobs same.users
  | pays executed =>
    obtain ⟨contracts, users, jobs, _⟩ := Db.payMilestone_some executed
    exact Db.contractView_kept found contracts jobs users
  | completes updated => exact ⟨_, Db.contractUpdate_view updated found⟩

theorem Goes.allPaid {phase' : ApprovalPhase} {db db' : Db} (goes : Goes id db db' phase phase')
    (paid : db.AllPaid id) : db'.AllPaid id := by
  cases goes with
  | reads same => exact same.allPaid.mpr paid
  | pays executed => exact paid.payMilestone executed
  | completes updated =>
    obtain ⟨_, _, _, _, milestones, _⟩ := Db.contractUpdate_some updated
    rwa [Db.AllPaid, Db.milestonesOf, milestones]

theorem Goes.truthful {phase' : ApprovalPhase} {db db' : Db} (goes : Goes id db db' phase phase')
    (truthful : db.Completed id → db.AllPaid id) (armed : phase = .completing → db.AllPaid id)
    (completed : db'.Completed id) : db'.AllPaid id := by
  apply goes.allPaid
  cases goes with
  | reads same => exact truthful (same.completed.mp completed)
  | pays executed =>
    rw [Db.Completed, (Db.payMilestone_some executed).1] at completed
    exact truthful completed
  | completes => exact armed rfl

theorem Goes.saw {phase' : ApprovalPhase} {db db' : Db} (goes : Goes id db db' phase phase')
    (completing : phase' = .completing) : db.AllPaid id := by
  cases goes with
  | reads _ _ _ saw => exact saw completing
  | pays | completes => contradiction

theorem Goes.sees {phase' : ApprovalPhase} {db db' : Db} (goes : Goes id db db' .checking phase')
    (paid : db.AllPaid id) : phase' = .completing := by
  cases goes with
  | reads _ _ sees => exact sees rfl paid

theorem Goes.completes_row {phase' : ApprovalPhase} {db db' : Db}
    (goes : Goes id db db' .completing phase') : db'.Completed id := by
  cases goes with
  | reads _ still => exact absurd rfl still
  | completes updated =>
    obtain ⟨row, _, stored, _⟩ := Db.contractUpdate_some updated
    exact ⟨_, stored, rfl⟩

theorem Goes.completed {phase' : ApprovalPhase} {db db' : Db} (goes : Goes id db db' phase phase')
    (completed : db.Completed id) : db'.Completed id := by
  cases goes with
  | reads same => exact same.completed.mpr completed
  | pays executed => rwa [Db.Completed, (Db.payMilestone_some executed).1]
  | completes updated => exact (Goes.completes updated).completes_row

/-- Whoever pays the last milestone checks for completion next. -/
theorem Goes.last {phase' : ApprovalPhase} {db db' : Db} (goes : Goes id db db' phase phase')
    (before : ¬ db.AllPaid id) (paid : db'.AllPaid id) : phase' = .checking := by
  cases goes with
  | reads same => exact absurd (same.allPaid.mp paid) before
  | pays => rfl
  | completes updated =>
    obtain ⟨_, _, _, _, milestones, _⟩ := Db.contractUpdate_some updated
    rw [Db.AllPaid, Db.milestonesOf, milestones] at paid
    exact absurd paid before

end Served

/-! ### Approvals in any order -/

section Approvals
variable {τ : Type} {host : Escrow.Host Address τ} {config : Config} {service service' start : Service τ}
  {occurrence : Occurrence} {id : Uuid} {trace : List (Service τ × Occurrence)}

/-- Between the commit of an approval and the end of its completion check. -/
def Closing (id : Uuid) (p : Request Response) : Prop :=
  Stage id .checking p ∨ Stage id .completing p

/-- What holds at every point: the contract is completed only where all is paid, and where
all is paid it is completed or somebody is about to. -/
structure Closes (id : Uuid) (service : Service τ) : Prop where
  staged : ∀ entry ∈ service.running, ∃ phase, Stage id phase entry.2
  viewed : ∃ view, service.world.db.contractView id = some view
  truthful : service.world.db.Completed id → service.world.db.AllPaid id
  armed : ∀ entry ∈ service.running, Stage id .completing entry.2 → service.world.db.AllPaid id
  closing : service.world.db.AllPaid id → service.world.db.Completed id ∨
    ∃ entry ∈ service.running, Closing id entry.2

/-- Only approvals of the contract are started. -/
def OnlyApproves (id : Uuid) : Occurrence → Prop
  | .start request => ∃ milestoneId callerId, request = .approveMilestone id milestoneId callerId
  | _ => True

theorem step_staged (closes : Closes id service) (only : OnlyApproves id occurrence)
    (step : Pool.Step (handle config) (Serves host False) (Outside host) service occurrence service') :
    ∀ entry ∈ service'.running, ∃ phase, Stage id phase entry.2 := by
  obtain ⟨view, found⟩ := closes.viewed
  refine step.each (fun _ rest => ∃ phase, Stage id phase rest) ?_ ?_ closes.staged
  · rintro request rfl
    obtain ⟨milestoneId, callerId, rfl⟩ := only
    exact ⟨.reading, approveMilestone_stage⟩
  · rintro index request op next answer _ answered ⟨phase, stage⟩
    obtain ⟨phase', stage', _⟩ := stage_served stage answered found
    exact ⟨phase', stage'⟩

/-- Where all is paid somebody still sees to the completion after an answer. -/
theorem served_closing {running : List (Endpoint × Request Response)} {index : Nat} {request : Endpoint}
    {op : Op} {next : Except Failure op.Answer → Request Response} {answer : Except Failure op.Answer}
    {world after : World τ} {phase phase' : ApprovalPhase} {view : ContractView}
    (at' : running[index]? = some (request, .await op next))
    (answered : Serves host False index world op answer after) (found : world.db.contractView id = some view)
    (stage' : Stage id phase' (next answer)) (goes : Goes id world.db after.db phase phase')
    (closing : world.db.AllPaid id → world.db.Completed id ∨ ∃ entry ∈ running, Closing id entry.2)
    (paid : after.db.AllPaid id) : after.db.Completed id ∨
      ∃ entry ∈ running.set index (request, next answer), Closing id entry.2 := by
  have new : (request, next answer) ∈ running.set index (request, next answer) :=
    List.mem_set (List.getElem?_eq_some_iff.mp at').1 _
  by_cases before : world.db.AllPaid id
  · rcases closing before with completed | ⟨entry, member, here⟩
    · exact .inl (goes.completed completed)
    · by_cases mine : entry = (request, Process.await op next)
      · subst mine
        rcases here with checking | completing
        · obtain ⟨_, turned, reads⟩ := stage_served checking answered found
          exact .inr ⟨_, new, .inr (reads.sees before ▸ turned)⟩
        · obtain ⟨_, _, completes⟩ := stage_served completing answered found
          exact .inl completes.completes_row
      · exact .inr ⟨entry, mem_replaced at' member mine _, here⟩
  · exact .inr ⟨_, new, .inl (goes.last before paid ▸ stage')⟩

theorem step_closes (closes : Closes id service) (only : OnlyApproves id occurrence)
    (step : Pool.Step (handle config) (Serves host False) (Outside host) service occurrence service') :
    Closes id service' := by
  have staged' := step_staged closes only step
  obtain ⟨staged, ⟨view, found⟩, truthful, armed, closing⟩ := closes
  cases step with
  | start request =>
    obtain ⟨milestoneId, callerId, rfl⟩ := only
    refine ⟨staged', ⟨view, found⟩, truthful, ?_, ?_⟩
    · intro entry member completing
      rcases List.mem_append.mp member with earlier | new
      · exact armed entry earlier completing
      · obtain rfl := List.mem_singleton.mp new
        cases completing.only_completing approveMilestone_stage
    · intro paid
      refine (closing paid).imp_right ?_
      rintro ⟨entry, member, here⟩
      exact ⟨entry, List.mem_append_left _ member, here⟩
  | @served world running index request op next answer after at' answered =>
    have inside : (request, Process.await op next) ∈ running := List.mem_of_getElem? at'
    obtain ⟨phase, stage⟩ := staged _ inside
    obtain ⟨phase', stage', goes⟩ := stage_served stage answered found
    refine ⟨staged', goes.viewed found, ?_, ?_, served_closing at' answered found stage' goes closing⟩
    · exact goes.truthful truthful fun completing => armed _ inside (completing ▸ stage)
    · intro entry member completing
      rcases List.mem_or_eq_of_mem_set member with earlier | rfl
      · exact goes.allPaid (armed entry earlier completing)
      · have last := completing.only_completing stage'
        exact goes.allPaid (goes.saw last)
  | outside moved =>
    have same : ∀ {w w' : World τ}, Outside host w w' → w'.db = w.db := by
      intro w w' moved
      cases moved <;> rfl
    have here := same moved
    exact ⟨staged', ⟨view, here ▸ found⟩, here ▸ truthful, here ▸ armed, here ▸ closing⟩

/-- The request has an answer, a result or a failure. -/
def Answered (p : Request Response) : Prop := ∀ op next, p ≠ .await op next

theorem Closing.waiting {p : Request Response} (closing : Closing id p) : ¬ Answered p := by
  rcases closing with checking | completing
  · cases checking
    exact fun answered => answered _ _ rfl
  · cases completing
    exact fun answered => answered _ _ rfl

theorem idle_closes {view : ContractView} (idle : start.running = [])
    (found : start.world.db.contractView id = some view) (active : view.status = .active)
    (unpaid : ¬ start.world.db.AllPaid id) : Closes id start where
  staged := by simp [idle]
  viewed := ⟨view, found⟩
  truthful := by
    rintro ⟨row, stored, completed⟩
    have same := Option.some.inj ((Db.contractView_some found).1.symm.trans stored)
    rw [← same, active] at completed
    contradiction
  armed := by simp [idle]
  closing paid := absurd paid unpaid

/-- Approvals of milestones in review, and nothing else, on an active contract: at no
point is it completed with a milestone unpaid, and once all requests have their answers
it is completed exactly when every milestone is paid. -/
theorem completion_exact {view : ContractView}
    (run : Runs.Run (Pool.Step (handle config) (Serves host False) (Outside host)) start trace service)
    (idle : start.running = []) (found : start.world.db.contractView id = some view)
    (active : view.status = .active)
    (approvals : ∀ point ∈ trace, ∀ request, point.2 = .start request →
      ∃ milestoneId callerId, request = .approveMilestone id milestoneId callerId ∧
        ∃ m ∈ view.milestones, m.id = milestoneId ∧ m.status = .inReview)
    (begun : ∃ point ∈ trace, ∃ request, point.2 = .start request) :
    (∀ point ∈ trace, point.1.world.db.Completed id → point.1.world.db.AllPaid id) ∧
    (service.world.db.Completed id → service.world.db.AllPaid id) ∧
    ((∀ entry ∈ service.running, Answered entry.2) →
      (service.world.db.Completed id ↔ service.world.db.AllPaid id)) := by
  have unpaid : ¬ start.world.db.AllPaid id := by
    intro paid
    obtain ⟨point, member, request, starts⟩ := begun
    obtain ⟨_, _, _, m, listed, _, inReview⟩ := approvals point member request starts
    rw [(Db.contractView_some found).2.1] at listed
    simp [paid m listed] at inReview
  have only : ∀ point ∈ trace, OnlyApproves id point.2 := by
    intro point member
    cases occurred : point.2 with
    | start request =>
      obtain ⟨milestoneId, callerId, same, _⟩ := approvals point member request occurred
      exact ⟨milestoneId, callerId, same⟩
    | served | outside => trivial
  have initial := idle_closes idle found active unpaid
  have closes : Closes id service := run.invariant_of (Closes id) (fun _ occurrence => OnlyApproves id occurrence)
    (fun closes only step => step_closes closes only step) only initial
  refine ⟨?_, closes.truthful, fun answered => ⟨closes.truthful, fun paid => ?_⟩⟩
  · intro point member
    obtain ⟨earlier, later, cut⟩ := List.append_of_mem member
    have before : Closes id point.1 := (run.cut cut).1.invariant_of (Closes id)
      (fun _ occurrence => OnlyApproves id occurrence)
      (fun closes only step => step_closes closes only step)
      (fun point member => only point (cut ▸ List.mem_append_left _ member)) initial
    exact before.truthful
  · rcases closes.closing paid with completed | ⟨entry, member, closing⟩
    · exact completed
    · exact absurd (answered entry member) closing.waiting

end Approvals

/-! ### Two approvals that commit before either checks -/

namespace Sample

/-- Both milestones are in review. -/
def bothReviewed : Option (Joint (Escrow.Bank Address)) :=
  reviewed.bind fun joint =>
    joint.request host config supply (.submitMilestone contractId nextMilestoneId freelancerId)

/-- Side by side, await by await. -/
def bothApprovals : List (Move Endpoint) :=
  [.start approval, .start (.approveMilestone contractId nextMilestoneId clientId)] ++
    (List.replicate 10 [.serve 0, .serve 1]).flatten

def approvesEither : Occurrence → Bool
  | .start (.approveMilestone id milestoneId' _) =>
      id = contractId ∧ (milestoneId' = milestoneId ∨ milestoneId' = nextMilestoneId)
  | .start _ => false
  | _ => true

theorem approvesEither_start {request : Endpoint}
    (approves : approvesEither (.start request) = true) : ∃ milestoneId' callerId,
      request = .approveMilestone contractId milestoneId' callerId ∧
        (milestoneId' = milestoneId ∨ milestoneId' = nextMilestoneId) := by
  cases request with
  | approveMilestone id milestoneId' callerId =>
    obtain ⟨rfl, either⟩ := of_decide_eq_true approves
    exact ⟨milestoneId', callerId, rfl, either⟩
  | _ => contradiction

def starts : Occurrence → Bool
  | .start _ => true
  | _ => false

theorem starts_sound {occurrence : Occurrence} (started : starts occurrence = true) :
    ∃ request, occurrence = .start request := by
  cases occurrence with
  | start request => exact ⟨request, rfl⟩
  | _ => contradiction

def answered : Endpoint × Request Response → Bool
  | (_, .await ..) => false
  | _ => true

theorem answered_sound {entry : Endpoint × Request Response} (ends : answered entry = true) :
    Answered entry.2 := by
  obtain ⟨request, rest⟩ := entry
  rintro op next rfl
  contradiction

end Sample

theorem completion_exact_sample : ∃ service : Service (Escrow.Bank Address),
    service.world.db.AllPaid Sample.contractId ∧ service.world.db.Completed Sample.contractId := by
  have happens : ∃ joint, Sample.bothReviewed = some joint ∧
      ∃ view, joint.world.db.contractView Sample.contractId = some view ∧ view.status = .active ∧
      (∀ id ∈ [Sample.milestoneId, Sample.nextMilestoneId],
        ∃ m ∈ view.milestones, m.id = id ∧ m.status = .inReview) ∧
      ∃ played, Sample.plays ⟨joint.world, []⟩ Sample.bothApprovals = some played ∧
      (∀ point ∈ played.1, Sample.approvesEither point.2 = true) ∧
      (∃ point ∈ played.1, Sample.starts point.2 = true) ∧
      (∀ entry ∈ played.2.running, Sample.answered entry = true) ∧
      ∀ m ∈ played.2.world.db.milestonesOf Sample.contractId, m.status = .paid := by
    decide
  obtain ⟨joint, _, view, found, active, reviewed, played, ran, approvals, ⟨first, member, starts⟩, ends,
    paid⟩ := happens
  have run : Runs.Run (Pool.Step (handle Sample.config) (Serves Sample.host False) (Outside Sample.host))
      ⟨joint.world, []⟩ played.1 played.2 :=
    Pool.playAll_run (fun index => Serves Sample.host False index) answer_serves ran
  have exact' := completion_exact run rfl found active ?_ ⟨first, member, Sample.starts_sound starts⟩
  · exact ⟨played.2, paid, (exact'.2.2 fun entry member => Sample.answered_sound (ends entry member)).mpr paid⟩
  · intro point member request starts
    obtain ⟨milestoneId, callerId, same, either⟩ :=
      Sample.approvesEither_start (starts ▸ approvals point member)
    exact ⟨milestoneId, callerId, same, reviewed _ (by simpa using either)⟩

end Stellance.Backend
