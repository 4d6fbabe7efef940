import Stellance.Backend.Interleaving
import Stellance.Backend.Script

/-! Readings and the writes that rest on them. Whatever a request writes, it has read its
contract once before and passed its checks then. -/
namespace Stellance.Backend
open ContractsService Process
variable {τ : Type} {host : Escrow.Host Address τ} {config : Config} {faults : Prop}
  {service service' start : Service τ} {index : Nat} {trace : List (Service τ × Occurrence)}

/-- Both are operations of one request, and the first has read a contract. -/
inductive RestsOn : Occurrence → Occurrence → Prop where
  | reading {index : Nat} {id : Uuid} {view : ContractView} {op : Op} {answer : Except Failure op.Answer} :
      RestsOn (.served index (.query (.contract id)) (.ok (some view))) (.served index op answer)

/-- A query is answered from the database as it is then. -/
theorem read_answer {point : Service τ × Occurrence} {query : Query} {answer : query.Answer}
    (step : Service.Step host config faults point.1 point.2 service')
    (asks : point.2 = .served index (.query query) (.ok answer)) :
    answer = point.1.world.db.answer query := by
  obtain ⟨service, occurrence⟩ := point
  dsimp only at asks step ⊢
  subst asks
  cases step with
  | served found answered =>
    cases answered
    rfl

/-- A request that writes has read its contract and passed its checks before. -/
theorem write_rests {op : Op} {answer : Except Failure op.Answer}
    (run : Runs.Run (Service.Step host config faults) start trace service) (idle : start.running = [])
    (step : Service.Step host config faults service (.served index op answer) service')
    (busy : ¬ op.Idle) (known : ∀ data, op ≠ .create data) (own : ∀ signer call, op ≠ .submit signer call) :
    ∃ earlier reading between endpoint id view later, trace = earlier ++ reading :: between ∧
      Runs.Run (Service.Step host config faults) start earlier reading.1 ∧
      Runs.Run (Service.Step host config faults) reading.1 (reading :: between) service ∧
      RestsOn reading.2 (.served index op answer) ∧
      reading.1.world.db.contractView id = some view ∧
      endpoint.contractId = some id ∧ endpoint.Admits view ∧
      told index trace = seen id view :: later ∧ Writes view endpoint later op := by
  cases step with
  | @served world running _ endpoint _ next _ _ found answered =>
    have follows := run_follows run idle (fun endpoint => handle_scripted config endpoint) found
    obtain ⟨id, view, later, told, contract, admits, writes⟩ := follows.1.wrote busy known own
    obtain ⟨point, member, asks⟩ := mem_told.mp (told ▸ List.mem_cons_self : seen id view ∈ _)
    obtain ⟨earlier, between, rfl⟩ := List.append_of_mem member
    obtain ⟨before, _, asked, rest⟩ := run.cut rfl
    refine ⟨earlier, point, between, endpoint, id, view, later, rfl, before, .head asked rest, ?_, ?_, contract,
      admits, told, writes⟩
    · rw [asks]
      exact .reading
    · exact (read_answer asked asks).symm

end Stellance.Backend
