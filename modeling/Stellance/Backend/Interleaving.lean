import Stellance.Backend.Database
import Stellance.Backend.Server

/-! Requests in any order. Requests start when they like, each await of each of them is
answered on its own, with faults or without, and the network and the other modules of
the backend move in between. -/
namespace Stellance.Backend
open ContractsService Process
variable {τ : Type} {host : Escrow.Host Address τ} {config : Config} {faults : Prop}

/-- The requests in flight, and the world they share. -/
abbrev Service (τ : Type) := Pool (World τ) Endpoint Failure Op Op.Answer Response

abbrev Occurrence := Process.Event Endpoint Failure Op Op.Answer

/-- What happens around the requests: transactions of others, and writes of the other
modules to their own tables. -/
inductive Around (host : Escrow.Host Address τ) : World τ → World τ → Prop where
  | network {w w' : World τ} (moved : Outside host w w') : Around host w w'
  | elsewhere {w : World τ} {users : Table User.id} {jobs : Table Job.id}
      {notifications : List Notification} :
      Around host w { w with db := { w.db with users, jobs, notifications } }

def Service.Step (host : Escrow.Host Address τ) (config : Config) (faults : Prop) :
    Service τ → Occurrence → Service τ → Prop :=
  Pool.Step (handle config) (Serves host faults) (Around host)

variable {service service' start : Service τ} {occurrence : Occurrence} {w w' : World τ}
  {index : Nat} {trace : List (Service τ × Occurrence)}

/-! ### The ledger -/

theorem serves_reachable {op : Op} {answer : Except Failure op.Answer}
    (served : Serves host faults index w op answer w')
    (reached : Escrow.Reachable host w.chain.ledger) : Escrow.Reachable host w'.chain.ledger := by
  cases served with
  | applied | failed => exact reached.act (.call _ _)
  | _ => exact reached

theorem outside_reachable (moved : Outside host w w')
    (reached : Escrow.Reachable host w.chain.ledger) : Escrow.Reachable host w'.chain.ledger := by
  cases moved with
  | called | settled => exact reached.act (.call _ _)
  | unrelated => exact reached.act (.outside _)
  | expired => exact reached

theorem step_reachable (reached : Escrow.Reachable host service.world.chain.ledger)
    (step : Service.Step host config faults service occurrence service') :
    Escrow.Reachable host service'.world.chain.ledger := by
  cases step with
  | start => exact reached
  | served found answered => exact serves_reachable answered reached
  | outside around =>
    cases around with
    | network moved => exact outside_reachable moved reached
    | elsewhere => exact reached

/-- Whatever the requests do, the ledger is one the escrow contract can be in. -/
theorem run_reachable (run : Runs.Run (Service.Step host config faults) start trace service)
    (reached : Escrow.Reachable host start.world.chain.ledger) :
    Escrow.Reachable host service.world.chain.ledger :=
  run.invariant (I := fun service => Escrow.Reachable host service.world.chain.ledger)
    step_reachable reached

/-! ### The network and the milestones -/

/-- Only a submission reaches the network. -/
theorem serves_chain {op : Op} {answer : Except Failure op.Answer}
    (served : Serves host faults index w op answer w')
    (silent : ∀ signer call, op ≠ .submit signer call) : w'.chain = w.chain := by
  cases served with
  | applied | failed | lost => exact absurd rfl (silent _ _)
  | _ => rfl

theorem serves_places {op : Op} {answer : Except Failure op.Answer}
    (served : Serves host faults index w op answer w') : Db.SamePlaces w.db w'.db := by
  cases served with
  | created created => exact (Db.create_some created).2.2.2.2.2.1
  | contractUpdated updated => exact Db.execute_places updated
  | milestoneUpdated updated => exact Db.execute_places updated
  | committed executed => exact Db.executeAll_places executed
  | _ => exact .of_eq rfl

theorem step_places (step : Service.Step host config faults service occurrence service') :
    Db.SamePlaces service.world.db service'.world.db := by
  cases step with
  | start => exact .of_eq rfl
  | served found answered => exact serves_places answered
  | outside around =>
    cases around with
    | network moved => cases moved <;> exact .of_eq rfl
    | elsewhere => exact .of_eq rfl

theorem run_places (run : Runs.Run (Service.Step host config faults) start trace service) :
    Db.SamePlaces start.world.db service.world.db := by
  induction run with
  | refl => exact .of_eq rfl
  | tail _ step ih => exact ih.trans (step_places step)

end Stellance.Backend
