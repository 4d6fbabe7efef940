import Stellance.Library.Services
import Stellance.Backend.Marketplace
import Stellance.Backend.Script

/-! Hiring against cancelling. Contracts are created and jobs cancelled by any number of
requests at once. Each checks the job in one query and writes in a later one; the unique
column keeps a second contract out, and nothing keeps a cancellation out that was overtaken
by a contract. -/
namespace Stellance.Backend
open Process
variable {τ : Type} {host : Escrow.Host Address τ} {config : Config} {faults : Prop}

/-- The database answers the jobs service, and the network stays as it is. -/
inductive JobsService.OnWorld (w : World τ) :
    (op : JobsService.Op) → Except Failure op.Answer → World τ → Prop where
  | intro {op : JobsService.Op} {answer : Except Failure op.Answer} {db : Db}
      (served : JobsService.Serves w.db op answer db) : OnWorld w op answer (w.wrote db)

namespace Hiring

inductive Endpoint where
  | create (clientId : Uuid) (dto : CreateContractDto)
  | cancel (id callerId : Uuid) (callerRole : UserRole)

abbrev Op := Backend.Op ⊕ JobsService.Op

abbrev Answer : Op → Type := Sum.elim Backend.Op.Answer JobsService.Op.Answer

abbrev Response := ContractsService.Response ⊕ Job

def handle (config : Config) : Endpoint → Process Failure Op Answer Response
  | .create clientId dto => Sum.inl <$> (ContractsService.handle config (.create clientId dto)).left
  | .cancel id callerId callerRole =>
      Sum.inr <$> (JobsService.handle (.cancel id callerId callerRole)).right

abbrev Service (τ : Type) := Pool (World τ) Endpoint Failure Op Answer Response

abbrev Occurrence := Process.Event Endpoint Failure Op Answer

def Serves (host : Escrow.Host Address τ) (faults : Prop) (request : Nat) :
    World τ → (op : Op) → Except Failure (Answer op) → World τ → Prop :=
  ServedByOne (Backend.Serves host faults request) JobsService.OnWorld

/-- The awaits of all requests in any order, and the network in between. -/
def Service.Step (host : Escrow.Host Address τ) (config : Config) (faults : Prop) :
    Service τ → Occurrence → Service τ → Prop :=
  Pool.Step (handle config) (Serves host faults) (Outside host)

/-! ### What the requests do -/

/-- What a cancellation writes. -/
def cancellation : JobsService.JobData := ⟨none, none, none, none, some .cancelled⟩

abbrev Told := List (Process.Exchange Failure Op Answer)

/-- A creation reads and creates; a cancellation reads its job and, where it has no
contract, writes it. -/
inductive Script : Endpoint → Told → Op → Prop where
  | idle {clientId : Uuid} {dto : CreateContractDto} {told : Told} {op : Backend.Op} (idle : op.Idle) :
      Script (.create clientId dto) told (.inl op)
  | create {clientId : Uuid} {dto : CreateContractDto} {told : Told} :
      Script (.create clientId dto) told (.inl (.create (dto.newContract clientId)))
  | read {id callerId : Uuid} {role : UserRole} : Script (.cancel id callerId role) [] (.inr (.job id))
  | cancel {id callerId : Uuid} {role : UserRole} {job : Job} :
      Script (.cancel id callerId role) [⟨.inr (.job id), .ok (some (job, none))⟩]
        (.inr (.update id cancellation))

/-- The same for the jobs service on its own. -/
inductive CancelScript (id : Uuid) :
    List (Process.Exchange Failure JobsService.Op JobsService.Op.Answer) → JobsService.Op → Prop where
  | read : CancelScript id [] (.job id)
  | write {job : Job} : CancelScript id [⟨.job id, .ok (some (job, none))⟩] (.update id cancellation)

theorem cancel_scripted {id callerId : Uuid} {role : UserRole} :
    (JobsService.handle (.cancel id callerId role)).Follows (CancelScript id) (fun _ _ => True) [] := by
  refine ⟨.read, fun answer => ?_⟩
  match answer with
  | .error e => trivial
  | .ok none => trivial
  | .ok (some (job, contract)) =>
    refine follows_throwIf (fun _ => trivial) fun _ => ?_
    refine follows_throwIf (fun _ => trivial) fun _ => ?_
    refine follows_throwIf (fun _ => trivial) fun unbound => ?_
    obtain rfl : contract = none := by simpa using unbound
    refine ⟨.write, fun answer => ?_⟩
    cases answer <;> trivial

theorem handle_script (endpoint : Endpoint) :
    (handle config endpoint).Follows (Script endpoint) (fun _ _ => True) [] := by
  cases endpoint with
  | cancel =>
    refine follows_map (follows_right cancel_scripted fun told op script => ?_)
    cases script with
    | read => exact .read
    | write => exact .cancel
  | create clientId dto =>
    have scripted := handle_scripted config (.create clientId dto)
    refine follows_map (follows_left scripted fun told op script => ?_)
    cases script with
    | idle idle => exact .idle idle
    | create creates =>
      cases creates
      exact .create
    | submit contract | write contract => contradiction

/-! ### What one answer does -/

end Hiring

/-- A contract that is not over. -/
def ContractStatus.Live (status : ContractStatus) : Prop :=
  status = .pending ∨ status = .active ∨ status = .disputed

namespace Db
variable {db db' : Db} {id : Uuid}

/-- No job has two contracts, and no cancelled job a live one. -/
structure Hired (db : Db) : Prop where
  unique : ∀ first second row row', db.contracts.find first = some row →
    db.contracts.find second = some row' → row.jobId = row'.jobId → first = second
  live : ∀ key row job, db.contracts.find key = some row → row.status.Live →
    db.jobs.find row.jobId = some job → job.status ≠ .cancelled

theorem Hired.same (hired : db.Hired) (same : SameTables db db') : db'.Hired := by
  constructor
  · rw [same.1]
    exact hired.unique
  · rw [same.1, same.2]
    exact hired.live

/-- A creation takes a job that had no contract, and the job is in progress after it. -/
theorem create_hired {ids : List Uuid} {data : NewContract} (hired : db.Hired)
    (created : db.create id ids data = some db') : db'.Hired := by
  obtain ⟨unbound, _, found⟩ := create_job created
  have alone := contractOfJob_none.mp unbound
  refine ⟨fun _ _ _ _ => create_unique hired.unique created, fun key row job after live stored => ?_⟩
  rw [found] at stored
  split at stored
  · obtain ⟨old, _, rfl⟩ := Option.map_eq_some_iff.mp stored
    intro contra
    contradiction
  · rename_i other
    rcases create_origin created after with before | ⟨_, mine, _⟩
    · exact hired.live key row job before live stored
    · exact absurd mine other

/-- Cancelling a job that has no contract. -/
theorem cancel_hired {data : JobsService.JobData} (hired : db.Hired) (unbound : db.contractOfJob id = none) :
    { db with jobs := db.jobs.modify id data.written data.written_id }.Hired := by
  refine ⟨hired.unique, fun key row job stored live found => ?_⟩
  have found := (Table.find_modify data.written_id).symm.trans found
  rw [if_neg (contractOfJob_none.mp unbound key row stored)] at found
  exact hired.live key row job stored live found

end Db

namespace Hiring
variable {w w' : World τ} {request : Nat} {op : Op} {answer : Except Failure (Answer op)}

/-- Operations that neither kind of request performs. -/
def Foreign : Op → Prop
  | .inl (.create _) => False
  | .inl op => ¬ op.Idle
  | .inr (.create _) => True
  | .inr _ => False

/-- What an answer does to jobs and contracts: nothing, or it creates a contract or updates
a job. -/
inductive Does (w : World τ) : (op : Op) → Except Failure (Answer op) → World τ → Prop where
  | nothing {op : Op} {answer : Except Failure (Answer op)} {w' : World τ} (same : SameTables w.db w'.db) :
      Does w op answer w'
  | hires {data : NewContract} {id : Uuid} {ids : List Uuid} {db : Db} {row : Contract}
      (created : w.db.create id ids data = some db) : Does w (.inl (.create data)) (.ok row) (w.wrote db)
  | cancels {id : Uuid} {data : JobsService.JobData} {row : Job} :
      Does w (.inr (.update id data)) (.ok row)
        (w.wrote { w.db with jobs := w.db.jobs.modify id data.written data.written_id })

theorem serves_does (served : Serves host faults request w op answer w') (own : ¬ Foreign op) :
    Does w op answer w' := by
  cases served with
  | left served =>
    cases served with
    | created created => exact .hires created
    | contractUpdated | milestoneUpdated | committed | applied | failed | lost | refused
    | rejectedContractUpdate | rejectedMilestoneUpdate | rejectedTransaction =>
      exact absurd not_false own
    | _ => exact .nothing ⟨rfl, rfl⟩
  | right served =>
    obtain ⟨served⟩ := served
    cases served with
    | found | rejected => exact .nothing ⟨rfl, rfl⟩
    | created => exact absurd trivial own
    | updated => exact .cancels

/-- A job is read with its contract. -/
theorem serves_job {id : Uuid} {answer : Except Failure (Answer (.inr (.job id)))}
    (served : Serves host faults request w (.inr (.job id)) answer w') :
    w'.db = w.db ∧ ∀ found, answer = .ok found → found = w.db.jobWithContract id := by
  cases served with
  | right served =>
    obtain ⟨served⟩ := served
    cases served with
    | found => exact ⟨rfl, fun found same => (Except.ok.inj same).symm⟩
    | rejected => exact ⟨rfl, nofun⟩

theorem serves_create {data : NewContract} {row : Contract}
    (served : Serves host faults request w (.inl (.create data)) (.ok row) w') :
    ∃ id ids, w.db.create id ids data = some w'.db := by
  cases served with
  | left served =>
    cases served with
    | created created => exact ⟨_, _, created⟩

theorem serves_update {id : Uuid} {data : JobsService.JobData} {row : Job}
    (served : Serves host faults request w (.inr (.update id data)) (.ok row) w') :
    ∃ old, w.db.jobs.find id = some old ∧ w'.db.contracts = w.db.contracts ∧
      w'.db.jobs.find id = some (data.written old) := by
  cases served with
  | right served =>
    obtain ⟨served⟩ := served
    cases served with
    | updated stored => exact ⟨_, stored, rfl, Table.find_modify_self data.written_id stored⟩

/-! ### Runs -/

section Runs
variable {service service' start : Service τ} {occurrence : Occurrence}
  {steps : List (Service τ × Occurrence)} {id key : Uuid} {index : Nat}

theorem handle_own (endpoint : Endpoint) : (handle config endpoint).Never Foreign := by
  refine (handle_script endpoint).never fun told op foreign script => ?_
  cases script with
  | @idle _ _ _ op idle =>
    cases op with
    | create => exact foreign
    | _ => exact foreign idle
  | create | read | cancel => exact foreign

/-- What a step does to jobs and contracts, as long as only these requests are in flight. -/
theorem step_does (own : service.Clean Foreign)
    (step : Service.Step host config faults service occurrence service') :
    SameTables service.world.db service'.world.db ∨ ∃ index op answer,
      occurrence = .served index op answer ∧ Does service.world op answer service'.world := by
  have good := fun index op answer (same : occurrence = .served index op answer) =>
    (same ▸ step).good own
  cases step with
  | start => exact .inl ⟨rfl, rfl⟩
  | served found answered => exact .inr ⟨_, _, _, rfl, serves_does answered (good _ _ _ rfl)⟩
  | outside moved =>
    left
    cases moved <;> exact ⟨rfl, rfl⟩

theorem step_own (own : service.Clean Foreign)
    (step : Service.Step host config faults service occurrence service') : service'.Clean Foreign :=
  step.clean handle_own own

/-- A contract stays as it is. -/
theorem run_contract (run : Runs.Run (Service.Step host config faults) start steps service)
    (own : start.Clean Foreign) {row : Contract} (found : start.world.db.contracts.find key = some row) :
    service.world.db.contracts.find key = some row := by
  refine (run.invariant (I := fun service => service.Clean Foreign ∧
    service.world.db.contracts.find key = some row) ?_ ⟨own, found⟩).2
  intro service occurrence service' ⟨own, found⟩ step
  refine ⟨step_own own step, ?_⟩
  rcases step_does own step with same | ⟨_, _, _, _, does⟩
  · exact same.1 ▸ found
  · generalize service'.world = after at does ⊢
    cases does with
    | nothing same => exact same.1 ▸ found
    | @hires data id ids db row' created =>
      obtain ⟨_, absent, _, others, _⟩ := Db.create_some created
      refine (others key ?_).trans found
      rintro rfl
      rw [absent] at found
      contradiction
    | cancels => exact found

/-- A job without a contract has none until one is created for it. -/
theorem run_unbound (run : Runs.Run (Service.Step host config faults) start steps service)
    (own : start.Clean Foreign) (unbound : start.world.db.contractOfJob id = none) :
    service.world.db.contractOfJob id = none ∨ ∃ (n index : Nat) (between : Service τ) (data : NewContract)
      (row : Contract), steps[n]? = some (between, .served index (.inl (.create data)) (.ok row)) ∧
        data.jobId = id := by
  induction run with
  | refl => exact .inl unbound
  | @tail steps service occurrence service' run step ih =>
    rcases ih with unbound | ⟨n, index, between, data, row, here, mine⟩
    · have own := run.invariant (I := fun service => service.Clean Foreign) step_own own
      rcases step_does own step with same | ⟨index, op, answer, rfl, does⟩
      · left
        unfold Db.contractOfJob at unbound ⊢
        rw [same.1]
        exact unbound
      · generalize service'.world = after at does ⊢
        cases does with
        | nothing same =>
          left
          unfold Db.contractOfJob at unbound ⊢
          rw [same.1]
          exact unbound
        | @hires data _ _ _ row created =>
          by_cases mine : data.jobId = id
          · exact .inr ⟨steps.length, index, service, data, row, by simp, mine⟩
          · left
            refine Db.contractOfJob_none.mpr fun key other found => ?_
            rcases Db.create_origin created found with before | ⟨_, theirs, _⟩
            · exact Db.contractOfJob_none.mp unbound key other before
            · exact theirs ▸ mine
        | cancels => exact .inl unbound
    · exact .inr ⟨n, index, between, data, row, Runs.still_at here, mine⟩

/-- A request to cancel a job has read that it has no contract, then a contract for the job
was created, and then the cancellation was written. -/
inductive Overtaken (steps : List (Service τ × Occurrence)) : Prop where
  | intro {n m k index other : Nat} {reading hiring writing : Service τ} {id : Uuid} {job written : Job}
      {data : NewContract} {row : Contract} (before : n < m) (after : m < k)
      (read : steps[n]? = some (reading, .served index (.inr (.job id)) (.ok (some (job, none)))))
      (hired : steps[m]? = some (hiring, .served other (.inl (.create data)) (.ok row)))
      (same : data.jobId = id)
      (cancelled : steps[k]? =
        some (writing, .served index (.inr (.update id cancellation)) (.ok written))) :
      Overtaken steps

theorem Overtaken.append {rest : List (Service τ × Occurrence)} (overtaken : Overtaken steps) :
    Overtaken (steps ++ rest) := by
  cases overtaken with
  | intro before after read hired same cancelled =>
    exact .intro before after (Runs.still_at read) (Runs.still_at hired) same (Runs.still_at cancelled)

theorem idle_own (idle : start.running = []) : start.Clean Foreign := by
  intro entry member
  rw [idle] at member
  contradiction

/-- A cancellation that was not overtaken finds its job without a contract. -/
theorem run_cancels {written : Job} {data : JobsService.JobData}
    (run : Runs.Run (Service.Step host config faults) start steps service) (idle : start.running = [])
    (step : Service.Step host config faults service (.served index (.inr (.update id data)) (.ok written))
      service')
    (clean : ¬ Overtaken (steps ++ [(service, .served index (.inr (.update id data)) (.ok written))])) :
    service.world.db.contractOfJob id = none := by
  obtain ⟨request, next, found, script⟩ := run_script (run.tail step) idle handle_script
    (n := steps.length) (List.getElem?_concat_length ..)
  rw [List.take_left] at script
  generalize heard : told index steps = told at script
  cases script with
  | @cancel _ callerId role job =>
    have member : (⟨.inr (.job id), .ok (some (job, none))⟩ : Process.Exchange Failure Op Answer) ∈
        told index steps := heard ▸ List.mem_cons_self
    obtain ⟨n, reading, read⟩ := told_at.mp member
    obtain ⟨first, between, asked, rest⟩ := run.pass read
    have own := first.invariant (I := fun service => service.Clean Foreign) step_own (idle_own idle)
    have own' := step_own own asked
    -- the job had no contract when it was read
    have unbound : between.world.db.contractOfJob id = none := by
      cases asked with
      | served _ answered =>
        obtain ⟨same, given⟩ := serves_job answered
        obtain ⟨_, _, pair⟩ := Option.map_eq_some_iff.mp (given _ rfl).symm
        dsimp only
        rw [same]
        exact congrArg Prod.snd pair
    rcases run_unbound rest own' unbound with unbound | ⟨m, other, hiring, new, row, hired, mine⟩
    · exact unbound
    · rw [List.getElem?_drop] at hired
      have inside := (List.getElem?_eq_some_iff.mp hired).1
      have later : n < n + 1 + m := by omega
      exact absurd (.intro later inside (Runs.still_at read) (Runs.still_at hired) mine
        (List.getElem?_concat_length ..)) clean

/-- A step keeps jobs and contracts in order, unless it writes a cancellation that was
overtaken. -/
theorem step_hired (run : Runs.Run (Service.Step host config faults) start steps service)
    (idle : start.running = []) (hired : service.world.db.Hired)
    (step : Service.Step host config faults service occurrence service')
    (clean : ¬ Overtaken (steps ++ [(service, occurrence)])) : service'.world.db.Hired := by
  have own := run.invariant (I := fun service => service.Clean Foreign) step_own (idle_own idle)
  rcases step_does own step with same | ⟨index, op, answer, rfl, does⟩
  · exact hired.same same
  · generalize service'.world = after at does ⊢
    cases does with
    | nothing same => exact hired.same same
    | hires created => exact Db.create_hired hired created
    | cancels => exact Db.cancel_hired hired (run_cancels run idle step clean)

theorem run_hired (run : Runs.Run (Service.Step host config faults) start steps service)
    (idle : start.running = []) (hired : start.world.db.Hired) (clean : ¬ Overtaken steps) :
    service.world.db.Hired := by
  induction run with
  | refl => exact hired
  | tail run step ih =>
    exact step_hired run idle (ih fun overtaken => clean overtaken.append) step clean

/-- A cancellation that was overtaken leaves a live contract on a cancelled job. -/
theorem overtaken_dead (run : Runs.Run (Service.Step host config faults) start steps service)
    (idle : start.running = []) (overtaken : Overtaken steps) :
    ∃ earlier rest between, steps = earlier ++ rest ∧
      Runs.Run (Service.Step host config faults) start earlier between ∧
      Runs.Run (Service.Step host config faults) between rest service ∧ ¬ between.world.db.Hired := by
  cases overtaken with
  | @intro n m k index other reading hiring writing id job written data row before after read hired same cancelled =>
    obtain ⟨first, _⟩ := run.pass hired
    obtain ⟨entered, enters, between⟩ := run.between hired cancelled after
    obtain ⟨earlier, last, writes, rest⟩ := run.pass cancelled
    have own := first.invariant (I := fun service => service.Clean Foreign) step_own (idle_own idle)
    -- the contract that was created is still there, pending, when the job is cancelled
    have pending : ∃ key, entered.world.db.contracts.find key =
        some ⟨key, data.jobId, data.freelancerId, data.clientId, .pending, none⟩ := by
      cases enters with
      | served _ answered =>
        obtain ⟨key, ids, created⟩ := serves_create answered
        exact ⟨key, (Db.create_some created).2.2.1⟩
    obtain ⟨key, stored⟩ := pending
    have kept := run_contract between (step_own own enters) stored
    refine ⟨steps.take k ++ [(writing, _)], steps.drop (k + 1), last, ?_, earlier.tail writes, rest, ?_⟩
    · obtain ⟨inside, here⟩ := List.getElem?_eq_some_iff.mp cancelled
      rw [List.append_assoc, List.singleton_append, ← here, ← List.drop_eq_getElem_cons inside,
        List.take_append_drop]
    · intro orderly
      cases writes with
      | served _ answered =>
        obtain ⟨old, _, contracts, cancelled⟩ := serves_update answered
        exact orderly.live key _ _ (contracts ▸ kept) (.inl rfl) (same ▸ cancelled) rfl

/-- Any number of creations and cancellations, interleaved in any way, leave no cancelled job
with a live contract, and no job with two, exactly where no cancellation is overtaken by a
creation. -/
theorem hired_iff (run : Runs.Run (Service.Step host config faults) start steps service)
    (idle : start.running = []) (hired : start.world.db.Hired) :
    (∀ earlier rest between, steps = earlier ++ rest →
      Runs.Run (Service.Step host config faults) start earlier between →
      Runs.Run (Service.Step host config faults) between rest service → between.world.db.Hired) ↔
      ¬ Overtaken steps := by
  constructor
  · intro always overtaken
    obtain ⟨earlier, rest, between, cut, first, later, dead⟩ := overtaken_dead run idle overtaken
    exact dead (always earlier rest between cut first later)
  · rintro clean earlier rest between rfl first _
    exact run_hired first idle hired fun overtaken => clean overtaken.append

end Runs

end Hiring

/-! ### A client with two windows -/

/-- The answers of the database to the jobs service, where no id has to be drawn. -/
def World.jobsAnswer (w : World τ) : (op : JobsService.Op) → Option (Except Failure op.Answer × World τ)
  | .job id => some (.ok (w.db.jobWithContract id), w)
  | .create _ => none
  | .update id data => (w.db.jobs.find id).map fun row =>
      (.ok (data.written row),
        w.wrote { w.db with jobs := w.db.jobs.modify id data.written data.written_id })

theorem jobsAnswer_serves {w w' : World τ} {op : JobsService.Op} {given : Except Failure op.Answer}
    (answered : w.jobsAnswer op = some (given, w')) : JobsService.OnWorld w op given w' := by
  cases op with
  | job id =>
    cases answered
    exact .intro (.found id)
  | create => contradiction
  | update id data =>
    obtain ⟨row, stored, same⟩ := Option.map_eq_some_iff.mp answered
    cases same
    exact .intro (.updated stored)

namespace Hiring

def plays (moves : List (Move Endpoint)) :
    Option (List (Service (Escrow.Bank Address) × Occurrence) × Service (Escrow.Bank Address)) :=
  (⟨Sample.start.world, []⟩ : Service (Escrow.Bank Address)).playAll (handle Sample.config)
    (fun index => answerBoth (World.answer Sample.host Sample.supply index) World.jobsAnswer) moves

theorem plays_run {moves : List (Move Endpoint)} {service : Service (Escrow.Bank Address)}
    {steps : List (Service (Escrow.Bank Address) × Occurrence)} (played : plays moves = some (steps, service)) :
    Runs.Run (Service.Step Sample.host Sample.config False) ⟨Sample.start.world, []⟩ steps service := by
  refine Pool.playAll_run (fun index => Serves Sample.host False index) ?_ played
  intro index w op given between answered
  refine answerBoth_served ?_ ?_ answered
  · exact fun _ _ _ _ => answer_serves
  · exact fun _ _ _ _ => jobsAnswer_serves

/-- No job is written. -/
def Occurrence.quiet : Occurrence → Bool
  | .start _ => true
  | .outside => true
  | .served _ (.inl _) _ => true
  | .served _ (.inr (.job _)) _ => true
  | .served _ (.inr (.create _)) _ => true
  | .served _ (.inr (.update ..)) _ => false

theorem start_hired : Sample.start.world.db.Hired where
  unique := nofun
  live := nofun

/-- An offer and a cancellation of the job, both sent before either is served. -/
def race (served : List Nat) : List (Move Endpoint) :=
  [.start (.create Sample.clientId Sample.dto), .start (.cancel Sample.jobId Sample.clientId .client)] ++
    served.map .serve

end Hiring

/-- The cancellation reads the job before the contract is created, and is written after. -/
theorem hired_fails : ¬ ∀ (start service : Hiring.Service (Escrow.Bank Address))
    (steps : List (Hiring.Service (Escrow.Bank Address) × Hiring.Occurrence)),
    Runs.Run (Hiring.Service.Step Sample.host Sample.config False) start steps service →
    start.running = [] → start.world.db.Hired → service.world.db.Hired := by
  intro always
  have happens : ∃ ran, Hiring.plays (Hiring.race [0, 0, 0, 1, 0, 1]) = some ran ∧
      (ran.2.world.db.contracts.find Sample.contractId).map (fun row => (row.jobId, row.status)) =
        some (Sample.jobId, .pending) ∧
      (ran.2.world.db.jobs.find Sample.jobId).map Job.status = some .cancelled := by
    decide
  obtain ⟨ran, played, hired, cancelled⟩ := happens
  obtain ⟨row, stored, same⟩ := Option.map_eq_some_iff.mp hired
  obtain ⟨mine, pending⟩ := Prod.mk.inj same
  obtain ⟨job, found, dead⟩ := Option.map_eq_some_iff.mp cancelled
  have orderly := always _ _ _ (Hiring.plays_run played) rfl Hiring.start_hired
  exact orderly.live _ row job stored (.inl pending) (mine ▸ found) dead

/-- The cancellation reads the job after the contract was created, and is refused. -/
theorem hired_iff_sample : ∃ (service : Hiring.Service (Escrow.Bank Address))
    (steps : List (Hiring.Service (Escrow.Bank Address) × Hiring.Occurrence)),
    Runs.Run (Hiring.Service.Step Sample.host Sample.config False) ⟨Sample.start.world, []⟩ steps service ∧
      (service.world.db.contracts.find Sample.contractId).map Contract.status = some .pending ∧
      service.world.db.Hired := by
  have happens : ∃ ran, Hiring.plays (Hiring.race [0, 0, 0, 0, 1]) = some ran ∧
      (ran.2.world.db.contracts.find Sample.contractId).map Contract.status = some .pending ∧
      ran.1.all fun point => Hiring.Occurrence.quiet point.2 := by
    decide
  obtain ⟨⟨steps, service⟩, played, hired, unwritten⟩ := happens
  have run := Hiring.plays_run played
  refine ⟨service, steps, run, hired, ?_⟩
  refine (Hiring.hired_iff run rfl Hiring.start_hired).mpr ?_ steps [] service (List.append_nil _).symm run .refl
  intro overtaken
  cases overtaken with
  | intro _ _ _ _ _ cancelled =>
    have quiet := List.all_eq_true.mp unwritten _ (List.mem_of_getElem? cancelled)
    contradiction

end Stellance.Backend
