import Stellance.Backend.Interleaving
import Stellance.Backend.Interpreter
import Stellance.Escrow.History

/-! What a confirmed funding is worth. `confirmFund` asks the network for a transaction
of the given hash and for nothing else, so the entry it vouches for is there exactly
where the calls accepted under the contract's key have put it. -/
namespace Stellance.Backend
open ContractsService Process

section Confirmations
variable {τ : Type} {host : Escrow.Host Address τ} {config : Config} {faults : Prop}
  {service service' start : Service τ} {occurrence : Occurrence}
  {trace : List (Service τ × Occurrence)} {id : Uuid} {db db' : Db} {status : ContractStatus}
  {hash : Option TxHash} {w : World τ}

/-- The terms a contract is to be funded on: the keys of its parties and of the
platform, and the sum of its milestones. -/
def Db.terms (db : Db) (config : Config) (id : Uuid) : Option (Escrow.Terms Address) := do
  let view ← db.contractView id
  let client ← view.client.stellarPublicKey
  let freelancer ← view.freelancer.stellarPublicKey
  let admin ← config.adminPublicKey
  some ⟨client, freelancer, admin, (view.milestones.map Milestone.amount).sum⟩

/-- The contract's entry is funded on its terms. -/
def World.Backed (w : World τ) (config : Config) (id : Uuid) : Prop :=
  ∃ terms, w.db.terms config id = some terms ∧
    ∃ entry, w.chain.ledger.entry id.symbol = some entry ∧ entry.FundedOn terms

/-- The calls accepted under the contract's key are a funding on its terms and, after
it, milestone releases short of the total. -/
def World.Opened (w : World τ) (config : Config) (id : Uuid) : Prop :=
  ∃ terms, w.db.terms config id = some terms ∧
    terms.Opens id.symbol (Escrow.accepted w.chain.ledger.receipts id.symbol)

/-- A request to confirm the funding of the contract writes it down. -/
def Confirms (id : Uuid) (service : Service τ) : Occurrence → Bool
  | .served index (.contractUpdate key .active (some txHash)) (.ok _) =>
      key = id ∧ (service.running[index]?).any fun (endpoint, _) =>
        match endpoint with
        | .confirmFund key' _ txHash' => key' = id ∧ txHash' = txHash
        | _ => false
  | _ => false

/-- The terms do not depend on the status of the row. -/
theorem contractUpdate_terms (updated : db.execute (.contractUpdate id status hash) = some db')
    (key : Uuid) : db'.terms config key = db.terms config key := by
  rw [Db.execute] at updated
  split at updated
  · obtain rfl := Option.some.inj updated
    unfold Db.terms Db.contractView
    dsimp only
    rw [Table.find_modify (Contract.updated_id status hash)]
    split
    · rename_i same
      rw [same]
      -- the row has the same job and parties as before
      cases db.contracts.find id with
      | none => rfl
      | some row =>
        simp only [Option.map_some, Option.bind_eq_bind, Option.bind_some, Option.bind_assoc]
        rfl
    · rfl
  · contradiction

theorem backed_iff_opened (reached : Escrow.Reachable host w.chain.ledger) :
    w.Backed config id ↔ w.Opened config id := by
  constructor
  · rintro ⟨terms, agreed, funded⟩
    exact ⟨terms, agreed, (Escrow.funded_iff_history reached terms).mp funded⟩
  · rintro ⟨terms, agreed, opened⟩
    exact ⟨terms, agreed, (Escrow.funded_iff_history reached terms).mpr opened⟩

/-- A confirmation leaves the network and the terms as they are. -/
theorem confirms_frame (step : Service.Step host config faults service occurrence service')
    (confirms : Confirms id service occurrence = true) :
    service'.world.chain = service.world.chain ∧
      service'.world.db.terms config id = service.world.db.terms config id := by
  unfold Confirms at confirms
  split at confirms
  · cases step with
    | served found answered =>
      cases answered with
      | contractUpdated updated => exact ⟨rfl, contractUpdate_terms updated id⟩
  · contradiction

/-- A confirmed contract is backed by its entry exactly when the calls accepted under
its key have opened it, whatever the confirmed hash. -/
theorem confirmed_backed_iff
    (run : Runs.Run (Service.Step host config faults) start trace service)
    (deployed : Escrow.Reachable host start.world.chain.ledger)
    (step : Service.Step host config faults service occurrence service')
    (confirms : Confirms id service occurrence = true) :
    service'.world.Backed config id ↔ service.world.Opened config id := by
  have reached := run_reachable run deployed
  obtain ⟨chain, terms⟩ := confirms_frame step confirms
  rw [← backed_iff_opened reached]
  unfold World.Backed
  rw [chain, terms]

end Confirmations

/-! ### Two confirmations -/

namespace Sample

def idle : Service (Escrow.Bank Address) := ⟨start.world, []⟩

theorem deployed : Escrow.Reachable host idle.world.chain.ledger :=
  ⟨[], _, _, .refl⟩

def hash : TxHash := ⟨"t", by decide⟩

def offer : List (Move Endpoint) := .start (.create clientId dto) :: List.replicate 7 (.serve 0)

/-- The confirmation by that hash, up to its write. -/
def claim : List (Move Endpoint) :=
  [.start (.confirmFund contractId clientId hash), .serve 1, .serve 1]

/-- The network after a transaction that has nothing to do with the escrow contract. -/
def strange (service : Service (Escrow.Bank Address)) : Service (Escrow.Bank Address) :=
  { service with world := { service.world with
      chain := service.world.chain.pass host service.world.chain.ledger.state.tokens hash } }

/-- The network after the funding that `create` asked for. -/
def funded (service : Service (Escrow.Bank Address)) : Service (Escrow.Bank Address) :=
  { service with world := { service.world with
      chain := service.world.chain.enter host {"client"}
        (.fund contractId.symbol "client" "freelancer" "admin" (.fromU32 300) defaultTokenContractId)
        hash } }

/-- Schedules before and after something that happened on the network. -/
theorem run_around {before offered between after : Service (Escrow.Bank Address)}
    {moves moves' : List (Move Endpoint)}
    {earlier later : List (Service (Escrow.Bank Address) × Occurrence)}
    (first : plays before moves = some (earlier, offered))
    (second : plays between moves' = some (later, after))
    (moved : Outside host offered.world between.world) (same : between.running = offered.running) :
    Runs.Run (Service.Step host config False) before (earlier ++ [(offered, .outside)] ++ later) after := by
  have noticed : Service.Step host config False offered .outside between := by
    obtain ⟨world, running⟩ := between
    obtain rfl : running = offered.running := same
    exact .outside (.network moved)
  exact ((plays_run first).tail noticed).trans (plays_run second)

/-- A run in which the offered contract is confirmed after some transaction. -/
theorem confirmed_run {offered between claimed : Service (Escrow.Bank Address)}
    {earlier later : List (Service (Escrow.Bank Address) × Occurrence)}
    {confirmed : Occurrence × Service (Escrow.Bank Address)}
    (first : plays idle offer = some (earlier, offered))
    (second : plays between claim = some (later, claimed))
    (moved : Outside host offered.world between.world) (same : between.running = offered.running)
    (third : claimed.play (handle config) (World.answer host supply) (.serve 1) = some confirmed) :
    (∃ trace, Runs.Run (Service.Step host config False) idle trace claimed) ∧
      Service.Step host config False claimed confirmed.1 confirmed.2 :=
  ⟨⟨_, run_around first second moved same⟩,
    Pool.play_step (fun index => Serves host False index) answer_serves third⟩

end Sample

/-- A confirmation can go through with nothing behind it. -/
theorem confirmed_backed_fails : ¬ ∀ (start service service' : Service (Escrow.Bank Address))
    (trace : List (Service (Escrow.Bank Address) × Occurrence)) (occurrence : Occurrence) (id : Uuid),
    Escrow.Reachable Sample.host start.world.chain.ledger →
    Runs.Run (Service.Step Sample.host Sample.config False) start trace service →
    Service.Step Sample.host Sample.config False service occurrence service' →
    Confirms id service occurrence = true → service'.world.Backed Sample.config id := by
  intro always
  have happens : ∃ offered, Sample.plays Sample.idle Sample.offer = some offered ∧
      Sample.hash ∉ offered.2.world.chain.included ∧
      ∃ claimed, Sample.plays (Sample.strange offered.2) Sample.claim = some claimed ∧
      ∃ confirmed, claimed.2.play (handle Sample.config) (World.answer Sample.host Sample.supply)
        (.serve 1) = some confirmed ∧ Confirms Sample.contractId claimed.2 confirmed.1 = true ∧
      confirmed.2.world.chain.ledger.entry Sample.contractId.symbol = none := by
    decide
  obtain ⟨offered, first, fresh, claimed, second, confirmed, third, confirms, absent⟩ := happens
  obtain ⟨⟨trace, run⟩, step⟩ := Sample.confirmed_run first second (.unrelated _ fresh) rfl third
  obtain ⟨_, _, entry, stored, _⟩ := always _ _ _ trace _ _ Sample.deployed run step confirms
  rw [absent] at stored
  contradiction

/-- The client funds the contract as asked and confirms it. -/
theorem confirmed_backed_iff_sample : ∃ service : Service (Escrow.Bank Address),
    service.world.Backed Sample.config Sample.contractId := by
  have happens : ∃ offered, Sample.plays Sample.idle Sample.offer = some offered ∧
      Sample.hash ∉ offered.2.world.chain.included ∧
      ∃ claimed, Sample.plays (Sample.funded offered.2) Sample.claim = some claimed ∧
      claimed.2.world.db.terms Sample.config Sample.contractId =
        some ⟨"client", "freelancer", "admin", 300⟩ ∧
      Escrow.accepted claimed.2.world.chain.ledger.receipts Sample.contractId.symbol =
        [.fund Sample.contractId.symbol "client" "freelancer" "admin" (.fromU32 300)
          defaultTokenContractId] ∧
      ∃ confirmed, claimed.2.play (handle Sample.config) (World.answer Sample.host Sample.supply)
        (.serve 1) = some confirmed ∧ Confirms Sample.contractId claimed.2 confirmed.1 = true := by
    decide
  obtain ⟨offered, first, fresh, claimed, second, agreed, accepted, confirmed, third, confirms⟩ :=
    happens
  obtain ⟨⟨trace, run⟩, step⟩ := Sample.confirmed_run first second (.called _ _ fresh) rfl third
  have opened : claimed.2.world.Opened Sample.config Sample.contractId :=
    ⟨_, agreed, .fromU32 300, defaultTokenContractId, [], accepted, rfl, by decide⟩
  exact ⟨confirmed.2, (confirmed_backed_iff run Sample.deployed step confirms).mpr opened⟩

end Stellance.Backend
