import Stellance.Backend.Funding
import Stellance.Backend.Script
import Stellance.Escrow.Refusals

/-! The checks of the backend against the checks of the escrow contract. Every call of
the backend is made in the name of the admin key. The contract lets the admin release,
refund and arbitrate, but takes a dispute from the two parties alone, and it refunds
only what is not in dispute. -/
namespace Stellance.Backend
open ContractsService Process

section Guards
variable {τ : Type} {host : Escrow.Host Address τ} {config : Config} {w : World τ} {id : Uuid}
  {view : ContractView} {entry : Entry} {endpoint : Endpoint} {signer : Address} {call : ChainCall}

/-- What a request comes to submit once its contract was read, if it passes its checks. -/
def submission (config : Config) (db : Db) (endpoint : Endpoint) : Option (Address × ChainCall) :=
  match handle config endpoint with
  | .await (.query (.contract id)) next =>
    match next (.ok (db.contractView id)) with
    | .await (.submit signer call) _ => some (signer, call)
    | _ => none
  | _ => none

/-- The row and the entry of a contract correspond, and the platform is none of its
parties. -/
structure Corresponds (w : World τ) (config : Config) (id : Uuid) (view : ContractView)
    (entry : Entry) : Prop where
  found : w.db.contractView id = some view
  stored : w.chain.ledger.entry id.symbol = some entry
  admin : config.adminPublicKey = some entry.admin
  third : entry.admin ≠ entry.client ∧ entry.admin ≠ entry.freelancer
  status : view.status = .active ∧ entry.status = .funded ∨
    view.status = .disputed ∧ entry.status = .disputed
  covered : ∀ m ∈ view.milestones, m.status = .inReview → ∀ stroops,
    config.numbers.release m.amount = some stroops →
      (stroops : Int) ≤ entry.totalAmount.val - entry.releasedAmount.val

/-- The requests wired to a call that is not theirs to make. -/
def Misdirected (view : ContractView) : Endpoint → Prop
  | .dispute .. => True
  | .cancel .. => view.status = .disputed
  | _ => False

theorem submission_script (comes : submission config w.db endpoint = some (signer, call))
    (found : w.db.contractView id = some view) (acts : endpoint.contractId = some id) :
    endpoint.Admits view ∧ config.adminPublicKey = some signer ∧
      Submission config.numbers signer view endpoint call := by
  have scripted := handle_scripted config endpoint
  unfold submission at comes
  split at comes
  · rename_i key next first
    rw [first] at scripted
    split at comes
    · rename_i signer' call' rest second
      cases comes
      have after := scripted.2 (.ok (w.db.contractView key))
      rw [second] at after
      obtain ⟨id', view', told, contract, admits, adminKey, submits⟩ := after.1.submitted
      obtain rfl := Option.some.inj (contract.symm.trans acts)
      obtain ⟨rfl, found'⟩ := seen_eq.mp (List.head_eq_of_cons_eq told)
      obtain rfl := Option.some.inj (found.symm.trans found')
      exact ⟨admits, adminKey, submits⟩
    · contradiction
  · contradiction

/-- The backend's checks imply those of the escrow contract for exactly the requests that
are not misdirected. -/
theorem guards_agree_iff (reached : Escrow.Reachable host w.chain.ledger)
    (corresponds : Corresponds w config id view entry) (acts : endpoint.contractId = some id)
    (comes : submission config w.db endpoint = some (signer, call)) :
    (call.Entitled {signer} entry ∧
      ¬ (Escrow.invoke host {signer} call w.chain.ledger.state).1.outcome.Rejected) ↔
    ¬ Misdirected view endpoint := by
  obtain ⟨admits, key, submits⟩ := submission_script comes corresponds.found acts
  obtain rfl := Option.some.inj (corresponds.admin.symm.trans key)
  have own : call.contractId = id.symbol := by
    cases submits <;> exact congrArg Uuid.symbol (Option.some.inj acts)
  have stored : w.chain.ledger.entry call.contractId = some entry := own ▸ corresponds.stored
  have agrees : ¬ Misdirected view endpoint → call.Entitled {entry.admin} entry := by
    intro directed
    cases submits with
    | release =>
      have funded := (corresponds.status.resolve_right fun disputed => by
        rw [admits.2.1] at disputed
        exact nomatch disputed.1).2
      exact ⟨Finset.mem_singleton_self _, funded, fun stranger => stranger.2 rfl⟩
    | dispute => exact absurd trivial directed
    | resolve =>
      have disputed := (corresponds.status.resolve_left fun active => by
        rw [admits.2.1] at active
        exact nomatch active.1).2
      exact ⟨Finset.mem_singleton_self _, disputed, fun stranger => stranger rfl⟩
    | refund =>
      have funded := (corresponds.status.resolve_right fun disputed => directed disputed.1).2
      exact ⟨Finset.mem_singleton_self _, funded, fun stranger => stranger.2 rfl⟩
  have covered : ∀ key caller amount, call = .releaseMilestone key caller amount →
      amount.val ≤ entry.totalAmount.val - entry.releasedAmount.val := by
    rintro _ _ _ rfl
    cases submits with
    | release listed converted same =>
      obtain ⟨milestone, listed', inReview⟩ := admits.2.2
      obtain rfl := Option.some.inj (listed.symm.trans listed')
      rw [same]
      exact corresponds.covered _ (List.mem_of_find?_eq_some listed) inReview _ converted
  constructor
  · rintro ⟨entitled, _⟩ misdirected
    cases submits with
    | release | resolve => exact misdirected
    | dispute => exact entitled.known corresponds.third
    | refund =>
      have disputed : view.status = .disputed := misdirected
      rcases corresponds.status with ⟨active, _⟩ | ⟨_, frozen⟩
      · rw [active] at disputed
        contradiction
      · have funded := entitled.status
        rw [frozen] at funded
        contradiction
  · intro directed
    exact ⟨agrees directed, (agrees directed).not_rejected reached stored covered⟩

end Guards

/-! ### A confirmed contract -/

namespace Sample

set_option synthInstance.maxSize 512 in
/-- After the funding and its confirmation the row and the entry correspond. -/
theorem corresponds : ∃ (w : World (Escrow.Bank Address)) (view : ContractView) (entry : Entry),
    Escrow.Reachable host w.chain.ledger ∧ Corresponds w config contractId view entry ∧
      view.status = .active ∧
      submission config w.db (.dispute contractId clientId) =
        some ("admin", .dispute contractId.symbol "admin") ∧
      submission config w.db (.cancel contractId clientId .admin) =
        some ("admin", .refund contractId.symbol "admin") := by
  have happens : ∃ offered, plays idle offer = some offered ∧
      hash ∉ offered.2.world.chain.included ∧
      ∃ claimed, plays (funded offered.2) claim = some claimed ∧
      ∃ confirmed, claimed.2.play (handle config) (World.answer host supply) (.serve 1) =
        some confirmed ∧
      (confirmed.2.world.db.contractView contractId).map (fun view =>
        (view.status, view.milestones.map Milestone.status)) = some (.active, [.pending, .pending]) ∧
      confirmed.2.world.chain.ledger.entry contractId.symbol =
        some (.opened "client" "freelancer" "admin" (.fromU32 300) defaultTokenContractId) ∧
      submission config confirmed.2.world.db (.dispute contractId clientId) =
        some ("admin", .dispute contractId.symbol "admin") ∧
      submission config confirmed.2.world.db (.cancel contractId clientId .admin) =
        some ("admin", .refund contractId.symbol "admin") := by
    decide
  obtain ⟨offered, first, fresh, claimed, second, confirmed, third, read, stored, disputes,
    refunds⟩ := happens
  obtain ⟨view, found, same⟩ := Option.map_eq_some_iff.mp read
  obtain ⟨active, milestones⟩ := Prod.mk.inj same
  obtain ⟨⟨trace, run⟩, step⟩ := confirmed_run first second (.called _ _ fresh) rfl third
  refine ⟨confirmed.2.world, view,
    .opened "client" "freelancer" "admin" (.fromU32 300) defaultTokenContractId,
    run_reachable (run.tail step) deployed, ?_, active, disputes, refunds⟩
  refine ⟨found, stored, rfl, ⟨by decide, by decide⟩, .inl ⟨active, rfl⟩, fun m member inReview => ?_⟩
  have listed := List.mem_map_of_mem (f := Milestone.status) member
  rw [milestones, inReview] at listed
  exact absurd listed (by decide)

end Sample

/-- A party's dispute is submitted in the name of the admin, whom the contract turns
away. -/
theorem guards_agree_fails : ¬ ∀ (w : World (Escrow.Bank Address)) (id : Uuid) (view : ContractView)
    (entry : Entry) (endpoint : Endpoint) (signer : Address) (call : ChainCall),
    Escrow.Reachable Sample.host w.chain.ledger → Corresponds w Sample.config id view entry →
    endpoint.contractId = some id → submission Sample.config w.db endpoint = some (signer, call) →
    call.Entitled {signer} entry := by
  intro always
  obtain ⟨w, view, entry, reached, corresponds, _, disputes, _⟩ := Sample.corresponds
  have entitled := always w _ view entry _ _ _ reached corresponds rfl disputes
  have admin : entry.admin = "admin" := Option.some.inj corresponds.admin.symm
  exact entitled.known (admin ▸ corresponds.third)

/-- The admin's cancellation of an active contract is not turned away. -/
theorem guards_agree_iff_sample : ∃ (w : World (Escrow.Bank Address)) (entry : Entry),
    Escrow.Call.Entitled {"admin"} entry (.refund Sample.contractId.symbol "admin") ∧
      ¬ (Escrow.invoke Sample.host {"admin"} (.refund Sample.contractId.symbol "admin")
        w.chain.ledger.state).1.outcome.Rejected := by
  obtain ⟨w, view, entry, reached, corresponds, active, _, refunds⟩ := Sample.corresponds
  refine ⟨w, entry, (guards_agree_iff reached corresponds rfl refunds).mpr ?_⟩
  intro disputed
  rw [show view.status = .disputed from disputed] at active
  contradiction

end Stellance.Backend
