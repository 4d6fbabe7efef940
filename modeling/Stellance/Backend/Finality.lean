import Stellance.Backend.Columns
import Stellance.Backend.Funding

/-! States that should be final. Every request checks the contract it has read and
writes by id later on, so what it overwrites is what has become of the row in between:
a finished contract reopens, and a paid milestone goes back to review, through a request
that another one has overtaken, and in no other way. -/
namespace Stellance.Backend
open ContractsService Process
variable {τ : Type} {host : Escrow.Host Address τ} {config : Config} {faults : Prop}
  {service service' start : Service τ} {occurrence : Occurrence} {id : Uuid} {index : Nat}
  {trace : List (Service τ × Occurrence)} {endpoint : Endpoint} {view : ContractView}

/-! ### Finished contracts -/

def ContractStatus.Terminal (status : ContractStatus) : Prop :=
  status = .completed ∨ status = .cancelled

/-- A finished contract stays as it is. -/
def ContractStatus.Final (before after : ContractStatus) : Prop :=
  before.Terminal → after = before

/-- No endpoint acts on a contract it has read as finished. -/
theorem admits_live (admits : endpoint.Admits view) : ¬ view.status.Terminal := by
  have live : ∀ status, view.status = status → ¬ status.Terminal → ¬ view.status.Terminal := by
    rintro _ rfl live
    exact live
  cases endpoint with
  | create => exact admits.elim
  | confirmFund =>
    rcases admits.2.2 with pending | active
    · exact live _ pending (by simp [ContractStatus.Terminal])
    · exact live _ active (by simp [ContractStatus.Terminal])
  | submitMilestone | approveMilestone | resolveDispute =>
    exact live _ admits.2.1 (by simp [ContractStatus.Terminal])
  | dispute => exact live _ admits.2 (by simp [ContractStatus.Terminal])
  | cancel => exact fun terminal => terminal.elim admits.2.1.1 admits.2.1.2

/-- A request writes the status of no contract but its own. -/
theorem writes_status {later : List Exchange} {op : Op} {status : ContractStatus} {key : Uuid}
    (writes : Writes view endpoint later op) (contract : endpoint.contractId = some key)
    (written : (statusColumn id).operation op = some status) : key = id := by
  cases writes with
  | confirm | complete | dispute =>
    cases contract
    exact (Option.ite_none_right_eq_some.mp written).1
  | submit | pay => contradiction
  | resolve =>
    cases contract
    obtain ⟨statement, member, here⟩ := Column.writtenAll_mem _ written
    simp only [List.mem_cons, List.not_mem_nil, or_false] at member
    rcases member with rfl | rfl
    · contradiction
    · exact (Option.ite_none_right_eq_some.mp here).1
  | @cancel _ _ _ _ _ hash =>
    cases contract
    obtain ⟨statement, member, here⟩ := Column.writtenAll_mem _ written
    rcases List.mem_append.mp member with refund | rest
    · cases hash with
      | none => contradiction
      | some hash =>
        obtain rfl := List.mem_singleton.mp refund
        contradiction
    · simp only [List.mem_cons, List.not_mem_nil, or_false] at rest
      rcases rest with rfl | rfl
      · exact (Option.ite_none_right_eq_some.mp here).1
      · contradiction

/-- The status of a finished contract never changes in exactly the runs in which no
request writes a status after another one has, since it read the contract, finished it
otherwise. -/
theorem terminal_final_iff (run : Runs.Run (Service.Step host config faults) start trace service)
    (idle : start.running = []) (id : Uuid) :
    ((statusColumn id).cell host config faults).Upheld ContractStatus.Final start trace ↔
      ¬ ((statusColumn id).cell host config faults).Overtaken ContractStatus.Final RestsOn trace := by
  refine Runs.Cell.upheld_iff (fun _ _ => rfl) ?_ RestsOn.quiet ?_ run
  · intro a b c first second terminal
    have same := first terminal
    subst same
    exact second terminal
  · intro trace t l u new run step written
    refine column_fresh (G := ContractStatus.Final) ?_ run idle step written
    intro db endpoint key view later op new found contract admits writes wrote
    obtain rfl := writes_status writes contract wrote
    refine ⟨view.status, ?_, fun terminal => absurd terminal (admits_live admits)⟩
    exact congrArg (Option.map Contract.status) (Db.contractView_some found).1

namespace Sample

/-- The client's cancellation, up to its notifications. -/
def cancellation (index : Nat) : List (Move Endpoint) :=
  .start (.cancel contractId clientId .client) :: List.replicate 4 (.serve index)

end Sample

/-- A cancelled contract becomes active again: a confirmation that read it as pending
writes after the client has cancelled it. -/
theorem terminal_final_fails : ¬ ∀ (start service : Service (Escrow.Bank Address))
    (trace : List (Service (Escrow.Bank Address) × Occurrence)) (id : Uuid),
    Runs.Run (Service.Step Sample.host Sample.config False) start trace service → start.running = [] →
    ((statusColumn id).cell Sample.host Sample.config False).Upheld ContractStatus.Final start trace := by
  intro always
  have happens : ∃ offered, Sample.plays Sample.idle Sample.offer = some offered ∧
      Sample.hash ∉ offered.2.world.chain.included ∧
      ∃ cancelled, Sample.plays (Sample.strange offered.2) (Sample.claim ++ Sample.cancellation 2) =
        some cancelled ∧
      cancelled.2.world.db.contractStatus Sample.contractId = some .cancelled ∧
      ∃ reopened, Sample.plays cancelled.2 [.serve 1] = some reopened ∧
      reopened.2.world.db.contractStatus Sample.contractId = some .active := by
    decide
  obtain ⟨offered, first, fresh, cancelled, second, finished, reopened, third, active⟩ := happens
  have run := Sample.run_around first second (.unrelated _ fresh) rfl
  have last := Sample.plays_run third
  obtain ⟨status, stored, final⟩ := always _ _ _ Sample.contractId (run.trans last) rfl _ _ [] _ _
    (List.append_nil _).symm run last .cancelled finished
  obtain rfl := Option.some.inj (active.symm.trans stored)
  exact nomatch final (.inr rfl)

/-- A contract that is offered and cancelled stays so. -/
theorem terminal_final_iff_sample : ∃ (service : Service (Escrow.Bank Address))
    (trace : List (Service (Escrow.Bank Address) × Occurrence)),
    service.world.db.contractStatus Sample.contractId = some .cancelled ∧
      ((statusColumn Sample.contractId).cell Sample.host Sample.config False).Upheld
        ContractStatus.Final Sample.idle trace := by
  have happens : ∃ cancelled,
      Sample.plays Sample.idle (Sample.offer ++ Sample.cancellation 1) = some cancelled ∧
      cancelled.2.world.db.contractStatus Sample.contractId = some .cancelled ∧
      cancelled.1.filterMap (fun point => (statusColumn Sample.contractId).left point.2) =
        [.cancelled] := by
    decide
  obtain ⟨cancelled, played, finished, written⟩ := happens
  refine ⟨cancelled.2, cancelled.1, finished, ?_⟩
  refine (terminal_final_iff (Sample.plays_run played) rfl _).mpr (Runs.Cell.not_overtaken ?_)
  exact (congrArg List.length written).le

/-! ### Paid milestones -/

namespace MilestoneStatus

def rank : MilestoneStatus → Nat
  | .pending => 0
  | .inReview => 1
  | .approved => 2
  | .paid => 3

theorem rank_le (status : MilestoneStatus) : status.rank ≤ rank .paid := by
  cases status <;> decide

/-- A milestone only goes on. -/
def Onward (before after : MilestoneStatus) : Prop := before.rank ≤ after.rank

end MilestoneStatus

theorem payMilestone_written {contractId : Uuid} {m : Milestone} {hash : TxHash} :
    (milestoneColumn id).writtenAll (payMilestone contractId m hash) =
      if m.id = id then some .paid else none := by
  unfold Column.writtenAll payMilestone milestoneColumn Statement.milestoneStatus
  split <;> simp [*]

/-- Every write of a milestone takes it on from where the request has seen it. -/
theorem writes_milestone {db : Db} {later : List Exchange} {op : Op} {new : MilestoneStatus} {key : Uuid}
    (found : db.contractView key = some view) (contract : endpoint.contractId = some key)
    (admits : endpoint.Admits view) (writes : Writes view endpoint later op)
    (written : (milestoneColumn id).operation op = some new) :
    ∃ old, db.milestoneStatus id = some old ∧ old.Onward new := by
  have stored : ∀ {milestoneId : Uuid} {m : Milestone},
      view.milestones.find? (·.id = milestoneId) = some m →
      db.milestoneStatus milestoneId = some m.status ∧ m.id = milestoneId := by
    intro milestoneId m listed
    obtain ⟨member, rfl⟩ := Db.listed found listed
    refine ⟨?_, rfl⟩
    rw [Db.milestoneStatus, Table.find_of_mem (Db.mem_milestonesOf.mp member).1]
    rfl
  cases writes with
  | confirm | complete | dispute => contradiction
  | submit =>
    obtain ⟨rfl, same⟩ := Option.ite_none_right_eq_some.mp written
    obtain rfl := Option.some.inj same
    obtain ⟨m, listed, pending⟩ := admits.2.2
    refine ⟨_, (stored listed).1, ?_⟩
    rw [pending]
    exact Nat.zero_le _
  | @pay _ _ _ m _ _ _ listed =>
    obtain ⟨held, rfl⟩ := stored listed
    obtain ⟨rfl, same⟩ := Option.ite_none_right_eq_some.mp (payMilestone_written.symm.trans written)
    obtain rfl := Option.some.inj same
    exact ⟨_, held, m.status.rank_le⟩
  | resolve => contradiction
  | @cancel _ _ _ _ _ hash => cases hash <;> contradiction

/-- A milestone never goes backwards in exactly the runs in which no request submits it
after another one has, since it read the contract, approved it. -/
theorem milestone_onward_iff (run : Runs.Run (Service.Step host config faults) start trace service)
    (idle : start.running = []) (id : Uuid) :
    ((milestoneColumn id).cell host config faults).Upheld MilestoneStatus.Onward start trace ↔
      ¬ ((milestoneColumn id).cell host config faults).Overtaken MilestoneStatus.Onward RestsOn trace := by
  refine Runs.Cell.upheld_iff (fun _ => Nat.le_refl _) Nat.le_trans RestsOn.quiet ?_ run
  intro trace t l u new run step written
  exact column_fresh (G := MilestoneStatus.Onward) writes_milestone run idle step written

namespace Sample

/-- The confirmation, then a milestone that is submitted twice at the same time: both
requests have read it, and the first has written. -/
def submissions : List (Move Endpoint) :=
  claim ++ [.serve 1, .start (.submitMilestone contractId milestoneId freelancerId), .serve 2,
    .start (.submitMilestone contractId milestoneId freelancerId), .serve 3, .serve 2]

/-- Its approval, up to the commit. -/
def payment : List (Move Endpoint) :=
  [.start (.approveMilestone contractId milestoneId clientId), .serve 4, .serve 4, .serve 4]

end Sample

/-- A paid milestone goes back to review: its second submission, which read it as
pending, writes after the first one was approved. -/
theorem milestone_onward_fails : ¬ ∀ (start service : Service (Escrow.Bank Address))
    (trace : List (Service (Escrow.Bank Address) × Occurrence)) (id : Uuid),
    Runs.Run (Service.Step Sample.host Sample.config False) start trace service → start.running = [] →
    ((milestoneColumn id).cell Sample.host Sample.config False).Upheld MilestoneStatus.Onward start
      trace := by
  intro always
  have happens : ∃ offered, Sample.plays Sample.idle Sample.offer = some offered ∧
      Sample.hash ∉ offered.2.world.chain.included ∧
      ∃ paid, Sample.plays (Sample.funded offered.2) (Sample.submissions ++ Sample.payment) =
        some paid ∧
      paid.2.world.db.milestoneStatus Sample.milestoneId = some .paid ∧
      ∃ reviewed, Sample.plays paid.2 [.serve 3] = some reviewed ∧
      reviewed.2.world.db.milestoneStatus Sample.milestoneId = some .inReview := by
    decide
  obtain ⟨offered, first, fresh, paid, second, settled, reviewed, third, back⟩ := happens
  have run := Sample.run_around first second (.called _ _ fresh) rfl
  have last := Sample.plays_run third
  obtain ⟨status, stored, onward⟩ := always _ _ _ Sample.milestoneId (run.trans last) rfl _ _ [] _ _
    (List.append_nil _).symm run last .paid settled
  obtain rfl := Option.some.inj (stored.symm.trans back)
  contradiction

/-- A milestone submitted twice at the same time, before its approval. -/
theorem milestone_onward_iff_sample : ∃ (service : Service (Escrow.Bank Address))
    (trace : List (Service (Escrow.Bank Address) × Occurrence)),
    service.world.db.milestoneStatus Sample.milestoneId = some .inReview ∧
      ((milestoneColumn Sample.milestoneId).cell Sample.host Sample.config False).Upheld
        MilestoneStatus.Onward Sample.idle trace := by
  have happens : ∃ offered, Sample.plays Sample.idle Sample.offer = some offered ∧
      Sample.hash ∉ offered.2.world.chain.included ∧
      ∃ submitted, Sample.plays (Sample.funded offered.2) Sample.submissions = some submitted ∧
      submitted.2.world.db.milestoneStatus Sample.milestoneId = some .inReview ∧
      (offered.1 ++ [(offered.2, Event.outside)] ++ submitted.1).filterMap
        (fun point => (milestoneColumn Sample.milestoneId).left (Prod.snd point)) = [.inReview] := by
    decide
  obtain ⟨offered, first, fresh, submitted, second, inReview, written⟩ := happens
  have run := Sample.run_around first second (.called _ _ fresh) rfl
  refine ⟨submitted.2, _, inReview, (milestone_onward_iff run rfl _).mpr (Runs.Cell.not_overtaken ?_)⟩
  exact (congrArg List.length written).le

end Stellance.Backend
