import Stellance.Library.Cell
import Stellance.Backend.Readings

/-! Single columns of single rows, as cells that the statements write. Each request
writes them on the strength of its first reading of the contract. -/
namespace Stellance.Backend
open ContractsService Process
variable {τ V : Type} {host : Escrow.Host Address τ} {config : Config} {faults : Prop}
  {service service' start : Service τ} {occurrence : Occurrence} {id : Uuid} {index : Nat}
  {trace : List (Service τ × Occurrence)} {db db' : Db} {w w' : World τ}

/-- A column of one row, which other modules do not write. -/
structure Column (V : Type) extends
    Runs.Cell (fun (db : Db) (statement : Statement) (db' : Db) => db.execute statement = some db') V where
  created : ∀ {db db' : Db} {id : Uuid} {ids : List Uuid} {data : NewContract} {v : V},
    db.create id ids data = some db' → value db = some v → value db' = some v
  elsewhere : ∀ (db : Db) (users : Table User.id) (jobs : Table Job.id)
    (notifications : List Notification), value { db with users, jobs, notifications } = value db

namespace Column
variable (column : Column V)

/-- What a transaction leaves in the column, where it writes it. -/
def writtenAll (statements : List Statement) : Option V :=
  (statements.filterMap column.written).getLast?

theorem writtenAll_mem {statements : List Statement} {v : V}
    (written : column.writtenAll statements = some v) :
    ∃ statement ∈ statements, column.written statement = some v :=
  List.mem_filterMap.mp (List.mem_of_getLast? written)

theorem executeAll_kept {statements : List Statement} {v : V}
    (executed : db.executeAll statements = some db') (held : column.value db = some v) :
    column.value db' = some ((column.writtenAll statements).getD v) := by
  induction statements generalizing db v with
  | nil =>
    cases executed
    exact held
  | cons statement rest ih =>
    obtain ⟨between, first, later⟩ := Db.executeAll_cons executed
    cases written : column.written statement with
    | none =>
      rw [ih later (column.keeps first written held), writtenAll, writtenAll,
        List.filterMap_cons_none written]
    | some v' =>
      rw [ih later (column.writes first written), writtenAll, writtenAll,
        List.filterMap_cons_some written, List.getLast?_cons]
      rfl

theorem executeAll_writes {statements : List Statement} {v : V}
    (executed : db.executeAll statements = some db') (written : column.writtenAll statements = some v) :
    column.value db' = some v := by
  induction statements generalizing db with
  | nil => contradiction
  | cons statement rest ih =>
    obtain ⟨between, first, later⟩ := Db.executeAll_cons executed
    cases here : column.written statement with
    | none =>
      rw [writtenAll, List.filterMap_cons_none here] at written
      exact ih later written
    | some v' =>
      rw [column.executeAll_kept later (column.writes first here)]
      rw [writtenAll, List.filterMap_cons_some here, List.getLast?_cons] at written
      exact written

/-- What an operation leaves in the column, where it writes it. -/
def operation : Op → Option V
  | .contractUpdate id status hash => column.written (.contractUpdate id status hash)
  | .milestoneUpdate id status => column.written (.milestoneUpdate id status)
  | .transaction statements => column.writtenAll statements
  | _ => none

/-- The same for what happens in a run; a refused operation writes nothing. -/
def left : Occurrence → Option V
  | .served _ op (.ok _) => column.operation op
  | _ => none

theorem left_eq_some {v : V} (written : column.left occurrence = some v) :
    ∃ index op answer, occurrence = .served index op (.ok answer) ∧ column.operation op = some v := by
  unfold left at written
  split at written
  · exact ⟨_, _, _, rfl, written⟩
  · contradiction

theorem step_writes {v : V} (step : Service.Step host config faults service occurrence service')
    (written : column.left occurrence = some v) : column.value service'.world.db = some v := by
  obtain ⟨_, op, answer, rfl, wrote⟩ := column.left_eq_some written
  cases step with
  | served found answered =>
    cases answered with
    | contractUpdated updated => exact column.writes updated wrote
    | milestoneUpdated updated => exact column.writes updated wrote
    | committed executed => exact column.executeAll_writes executed wrote
    | _ => contradiction

theorem step_keeps {v : V} (step : Service.Step host config faults service occurrence service')
    (unwritten : column.left occurrence = none) (held : column.value service.world.db = some v) :
    column.value service'.world.db = some v := by
  cases step with
  | start => exact held
  | @served world running _ _ _ _ _ _ found answered =>
    cases answered with
    | created created => exact column.created created held
    | contractUpdated updated => exact column.keeps updated unwritten held
    | milestoneUpdated updated => exact column.keeps updated unwritten held
    | committed executed =>
      rw [column.executeAll_kept executed held]
      exact congrArg some (congrArg (Option.getD · v) unwritten)
    | notified notification => exact (column.elsewhere world.db _ _ _).trans held
    | _ => exact held
  | @outside world _ _ moved =>
    cases moved with
    | network moved => cases moved <;> exact held
    | elsewhere => exact (column.elsewhere world.db _ _ _).trans held

/-- The column in the course of a run of the service. -/
def cell (host : Escrow.Host Address τ) (config : Config) (faults : Prop) :
    Runs.Cell (Service.Step host config faults) V where
  value service := column.value service.world.db
  written := column.left
  writes := column.step_writes
  keeps := column.step_keeps

end Column

/-! ### A write and its reading -/

theorem RestsOn.quiet {V : Type} {column : Column V} {reading writing : Occurrence}
    (rests : RestsOn reading writing) : column.left reading = none := by
  cases rests
  rfl

/-- What writes a column is neither idle nor a creation or a submission. -/
theorem Column.operation_busy {V : Type} {column : Column V} {op : Op} {v : V}
    (writes : column.operation op = some v) :
    ¬ op.Idle ∧ (∀ data, op ≠ .create data) ∧ ∀ signer call, op ≠ .submit signer call := by
  refine ⟨fun idle => ?_, fun data same => ?_, fun signer call same => ?_⟩
  · cases op <;> first | exact idle | contradiction
  · subst same
    contradiction
  · subst same
    contradiction

/-- Every write of a column is good with what its reading found, if every endpoint is. -/
theorem column_fresh {V : Type} {column : Column V} {G : V → V → Prop}
    (each : ∀ {db : Db} {endpoint : Endpoint} {id : Uuid} {view : ContractView} {later : List Exchange}
      {op : Op} {new : V}, db.contractView id = some view → endpoint.contractId = some id →
      endpoint.Admits view → Writes view endpoint later op → column.operation op = some new →
      ∃ old, column.value db = some old ∧ G old new)
    (run : Runs.Run (Service.Step host config faults) start trace service) (idle : start.running = [])
    (step : Service.Step host config faults service occurrence service') {new : V}
    (written : column.left occurrence = some new) :
    ∃ earlier reading between old, trace = earlier ++ reading :: between ∧
      RestsOn reading.2 occurrence ∧ column.value reading.1.world.db = some old ∧ G old new := by
  obtain ⟨index, op, answer, rfl, wrote⟩ := column.left_eq_some written
  obtain ⟨busy, known, own⟩ := Column.operation_busy wrote
  obtain ⟨earlier, reading, between, endpoint, id, view, later, cut, _, _, rests, found, contract,
    admits, _, writes⟩ := write_rests run idle step busy known own
  obtain ⟨old, held, good⟩ := each found contract admits writes wrote
  exact ⟨earlier, reading, between, old, cut, rests, held, good⟩

/-! ### The columns of the states -/

def Statement.contractStatus (id : Uuid) : Statement → Option ContractStatus
  | .contractUpdate key status _ => if key = id then some status else none
  | _ => none

def Statement.milestoneStatus (id : Uuid) : Statement → Option MilestoneStatus
  | .milestoneUpdate key status => if key = id then some status else none
  | _ => none

namespace Db

def contractStatus (db : Db) (id : Uuid) : Option ContractStatus :=
  (db.contracts.find id).map Contract.status

def milestoneStatus (db : Db) (id : Uuid) : Option MilestoneStatus :=
  (db.milestones.find id).map Milestone.status

end Db

def statusColumn (id : Uuid) : Column ContractStatus where
  value db := db.contractStatus id
  written := Statement.contractStatus id
  writes := by
    intro db statement db' status executed written
    cases statement with
    | contractUpdate key =>
      obtain ⟨rfl, same⟩ := Option.ite_none_right_eq_some.mp written
      obtain ⟨row, _, stored, _⟩ := Db.contractUpdate_some executed
      rw [Db.contractStatus, stored, ← same]
      rfl
    | _ => contradiction
  keeps := by
    intro db statement db' status executed unwritten held
    have same : db'.contracts.find id = db.contracts.find id := by
      refine Db.execute_contract executed ?_
      rintro status hash rfl
      simp [Statement.contractStatus] at unwritten
    rw [Db.contractStatus, same]
    exact held
  created := by
    intro db db' key ids data status created held
    obtain ⟨_, absent, _, others, _⟩ := Db.create_some created
    have other : id ≠ key := by
      rintro rfl
      rw [Db.contractStatus, absent] at held
      contradiction
    rw [Db.contractStatus, others id other]
    exact held
  elsewhere := fun _ _ _ _ => rfl

def milestoneColumn (id : Uuid) : Column MilestoneStatus where
  value db := db.milestoneStatus id
  written := Statement.milestoneStatus id
  writes := by
    intro db statement db' status executed written
    cases statement with
    | milestoneUpdate key =>
      obtain ⟨rfl, same⟩ := Option.ite_none_right_eq_some.mp written
      obtain ⟨there, stored⟩ := Db.milestoneUpdate_find executed key
      obtain ⟨m, found⟩ := Option.isSome_iff_exists.mp there
      rw [Db.milestoneStatus, stored, if_pos rfl, found, ← same]
      rfl
    | _ => contradiction
  keeps := by
    intro db statement db' status executed unwritten held
    have same : db'.milestones.find id = db.milestones.find id := by
      cases statement with
      | milestoneUpdate key =>
        have other : key ≠ id := fun same => by simp [Statement.milestoneStatus, same] at unwritten
        rw [(Db.milestoneUpdate_find executed id).2, if_neg other.symm]
      | contractUpdate =>
        obtain ⟨_, _, _, _, milestones, _⟩ := Db.contractUpdate_some executed
        rw [milestones]
      | jobUpdate => rw [(Db.jobUpdate_some executed).2.1]
      | paymentCreate => rw [(Db.paymentCreate_some executed).2.1]
    rw [Db.milestoneStatus, same]
    exact held
  created := by
    intro db db' key ids data status created held
    obtain ⟨m, found, same⟩ := Option.map_eq_some_iff.mp held
    rw [Db.milestoneStatus, Db.create_milestone created found, ← same]
    rfl
  elsewhere := fun _ _ _ _ => rfl

end Stellance.Backend
