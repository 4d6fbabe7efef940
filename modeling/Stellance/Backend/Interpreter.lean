import Stellance.Backend.Interleaving
import Stellance.Backend.Joint
import Stellance.Escrow.Bank

/-! The world, computed: one answer for each awaited operation, given the ids and
hashes that the database and the network would draw. Requests run on it to a result. -/
namespace Stellance.Backend
open ContractsService

/-- Where new ids and hashes come from. -/
structure Supply where
  contractId : Db → Uuid
  milestoneIds : Db → Nat → List Uuid
  hash : List TxHash → TxHash

section Computed
variable {τ : Type} {host : Escrow.Host Address τ} {config : Config} {supply : Supply}
  {sender : Nat} {w after : World τ} {faults : Prop}

def World.answer (host : Escrow.Host Address τ) (supply : Supply) (request : Nat) (w : World τ) :
    (op : Op) → Option (Except Failure op.Answer × World τ)
  | .query asked => some (.ok (w.db.answer asked), w)
  | .create data => do
    let id := supply.contractId w.db
    let db ← w.db.create id (supply.milestoneIds w.db data.milestones.length) data
    let row ← db.contracts.find id
    some (.ok row, { w with db })
  | .contractUpdate id status hash =>
    match w.db.execute (.contractUpdate id status hash) with
    | some db => (db.contracts.find id).map fun row => (.ok row, { w with db })
    | none => some (.error (.internal "refused"), w)
  | .milestoneUpdate id status =>
    match w.db.execute (.milestoneUpdate id status) with
    | some db => (db.milestones.find id).map fun row => (.ok row, { w with db })
    | none => some (.error (.internal "refused"), w)
  | .transaction statements =>
    match w.db.executeAll statements with
    | some db => some (.ok (), { w with db })
    | none => some (.error (.internal "refused"), w)
  | .notify notification => some (.ok (),
      { w with db := { w.db with notifications := w.db.notifications ++ [notification] } })
  | .horizon txHash =>
    if txHash ∈ w.chain.included then some (.ok (), w)
    else some (.error (.internal "not found"), w)
  | .simulate _ => some (.ok (), w)
  | .submit signer call =>
    let hash := supply.hash w.chain.included
    if hash ∈ w.chain.included then none
    else
      let chain := w.chain.execute host ⟨request, signer, call⟩ hash
      if w.chain.Succeeds host {signer} call then some (.ok hash, { w with chain })
      else some (.error (.internal "failed"), { w with chain })

theorem answer_serves {op : Op} {given : Except Failure op.Answer}
    (answered : w.answer host supply sender op = some (given, after)) :
    Serves host faults sender w op given after := by
  cases op with
  | query asked =>
    cases answered
    exact .read asked
  | create data =>
    simp only [World.answer, Option.bind_eq_bind, Option.bind_eq_some_iff] at answered
    obtain ⟨db, created, row, stored, same⟩ := answered
    cases same
    exact .created created stored
  | contractUpdate id status hash =>
    simp only [World.answer] at answered
    split at answered
    · rename_i db updated
      obtain ⟨row, stored, same⟩ := Option.map_eq_some_iff.mp answered
      cases same
      exact .contractUpdated updated stored
    · rename_i refused
      cases answered
      exact .rejectedContractUpdate _ (.inr refused)
  | milestoneUpdate id status =>
    simp only [World.answer] at answered
    split at answered
    · rename_i db updated
      obtain ⟨row, stored, same⟩ := Option.map_eq_some_iff.mp answered
      cases same
      exact .milestoneUpdated updated stored
    · rename_i refused
      cases answered
      exact .rejectedMilestoneUpdate _ (.inr refused)
  | transaction statements =>
    simp only [World.answer] at answered
    split at answered
    · rename_i db executed
      cases answered
      exact .committed executed
    · rename_i refused
      cases answered
      exact .rejectedTransaction _ (.inr refused)
  | notify notification =>
    cases answered
    exact .notified notification
  | horizon txHash =>
    simp only [World.answer] at answered
    split at answered
    · rename_i included
      cases answered
      exact .onHorizon included
    · rename_i absent
      cases answered
      exact .notOnHorizon _ absent
  | simulate call =>
    cases answered
    exact .simulated call
  | submit signer call =>
    simp only [World.answer] at answered
    split at answered
    · contradiction
    · rename_i fresh
      split at answered
      · rename_i succeeds
        cases answered
        exact .applied fresh succeeds
      · rename_i fails
        cases answered
        exact .failed _ fresh fails

/-! ### Complete requests -/

namespace Joint
variable {joint joint' : Joint τ} {ours : Uuid → Prop}

/-- A request, run to its end. -/
def request (joint : Joint τ) (host : Escrow.Host Address τ) (config : Config) (supply : Supply)
    (endpoint : Endpoint) : Option (Joint τ) :=
  (Process.exec (World.answer host supply 0) joint.world (handle config endpoint)).map
    fun (result, world) => ⟨world, joint.issued ++ handedOut result⟩

theorem request_step {endpoint : Endpoint}
    (ran : joint.request host config supply endpoint = some joint') :
    Step host config ours joint (.request endpoint) joint' := by
  obtain ⟨⟨result, world⟩, executed, rfl⟩ := Option.map_eq_some_iff.mp ran
  have completes : Completes host joint.world (handle config endpoint) result world :=
    Process.exec_completes (Serves host False 0) answer_serves executed
  exact .request completes

/-- The funding transaction of a contract, signed and submitted. -/
def fund (joint : Joint τ) (host : Escrow.Host Address τ) (supply : Supply) (id : Uuid)
    (auths : Finset Address) : Option (Label × Joint τ) := do
  let (_, call) ← joint.issued.find? (·.1 = id)
  let hash := supply.hash joint.world.chain.included
  guard (hash ∉ joint.world.chain.included)
  some (.fund id auths call hash,
    { joint with world := joint.world.entered host auths call hash })

theorem fund_step {id : Uuid} {auths : Finset Address} {label : Label}
    (ran : joint.fund host supply id auths = some (label, joint')) :
    Step host config ours joint label joint' := by
  simp only [fund, Option.bind_eq_bind, Option.bind_eq_some_iff] at ran
  obtain ⟨⟨key, call⟩, found, _, fresh, same⟩ := ran
  cases same
  have here : key = id := by simpa using List.find?_some found
  subst here
  exact .fund (List.mem_of_find?_eq_some found) ((Option.guard_eq_some' _).mp fresh)

end Joint
end Computed

/-! ### A marketplace of two -/

namespace Sample

def clientId : Uuid := .repeated 1
def freelancerId : Uuid := .repeated 2
def jobId : Uuid := .repeated 3
def contractId : Uuid := .repeated 4
def milestoneId : Uuid := .repeated 5
def nextMilestoneId : Uuid := .repeated ⟨6, by decide⟩

def supply : Supply where
  contractId _ := contractId
  milestoneIds _ count := (List.range count).map fun n => .repeated (.ofNat 16 (5 + n))
  hash included := ⟨String.ofList ('t' :: included.map fun _ => 'x'), by simp⟩

def host : Escrow.Host Address (Escrow.Bank Address) := Escrow.Bank.host "escrow"

def config : Config := ⟨some "admin", none, .doubles⟩

def start : Joint (Escrow.Bank Address) where
  world :=
    { db :=
        { users := ⟨[⟨clientId, some "client"⟩, ⟨freelancerId, some "freelancer"⟩], by decide⟩
          jobs := ⟨[⟨jobId, "A site", "A site of our own", 300, "Web", .open, clientId⟩], by decide⟩
          contracts := .empty
          milestones := .empty
          payments := .empty
          notifications := [] }
      chain :=
        { ledger := .deployed (fun _ => 0) (.endowed 1000 "escrow")
          included := []
          pending := []
          executed := [] } }
  issued := []

/-- Two milestones, of 100 and 200 stroops. -/
def dto : CreateContractDto where
  jobId := jobId
  freelancerId := freelancerId
  milestones := [⟨"Draft", 100, by decide, by decide⟩, ⟨"Final", 200, by decide, by decide⟩]
  someMilestone := by decide

theorem started : start.Started :=
  ⟨rfl, rfl, rfl, ⟨_, _, rfl⟩, rfl⟩

/-- The moves of a schedule over a service of the marketplace. -/
def plays (service : Service (Escrow.Bank Address)) (moves : List (Process.Move Endpoint)) :
    Option (List (Service (Escrow.Bank Address) × Occurrence) × Service (Escrow.Bank Address)) :=
  service.playAll (handle config) (World.answer host supply) moves

theorem plays_run {service service' : Service (Escrow.Bank Address)}
    {moves : List (Process.Move Endpoint)} {trace : List (Service (Escrow.Bank Address) × Occurrence)}
    (played : plays service moves = some (trace, service')) :
    Runs.Run (Service.Step host config False) service trace service' :=
  Process.Pool.playAll_run (fun index => Serves host False index) answer_serves played

end Sample

end Stellance.Backend
