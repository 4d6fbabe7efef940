import Stellance.Backend.Tracking

/-! The backend and the network together, one complete request at a time. Clients sign
and submit the funding transactions that `create` handed out, whenever they like, and
everything else goes on around them: other transactions, other endpoints. -/
namespace Stellance.Backend
open ContractsService
variable {τ : Type} {host : Escrow.Host Address τ} {config : Config} {ours : Uuid → Prop}

/-- The world, and the funding transactions handed out so far. -/
structure Joint (τ : Type) where
  world : World τ
  issued : List (Uuid × ChainCall)

/-- The funding transaction an answer hands out. -/
def handedOut : Except Failure Response → List (Uuid × ChainCall)
  | .ok (.created view (some call)) => [(view.id, call)]
  | _ => []

inductive Label where
  | request (endpoint : Endpoint)
  | fund (id : Uuid) (auths : Finset Address) (call : ChainCall) (hash : TxHash)
  | other (auths : Finset Address) (call : ChainCall)
  | tokens
  | elsewhere

/-- The world after somebody's transaction. -/
def World.entered (w : World τ) (host : Escrow.Host Address τ) (auths : Finset Address)
    (call : ChainCall) (hash : TxHash) : World τ :=
  { w with chain := w.chain.enter host auths call hash }

/-- The contracts in `ours` are left alone by everybody but the backend and their
clients. -/
inductive Joint.Step (host : Escrow.Host Address τ) (config : Config) (ours : Uuid → Prop) :
    Joint τ → Label → Joint τ → Prop where
  | request {joint : Joint τ} {endpoint : Endpoint} {result : Except Failure Response}
      {world : World τ} (ran : Completes host joint.world (handle config endpoint) result world) :
      Step host config ours joint (.request endpoint) ⟨world, joint.issued ++ handedOut result⟩
  | fund {joint : Joint τ} {id : Uuid} {auths : Finset Address} {call : ChainCall} {hash : TxHash}
      (handed : (id, call) ∈ joint.issued) (fresh : hash ∉ joint.world.chain.included) :
      Step host config ours joint (.fund id auths call hash)
        { joint with world := joint.world.entered host auths call hash }
  | other {joint : Joint τ} {auths : Finset Address} {call : ChainCall} {hash : TxHash}
      (foreign : ∀ id, ours id → call.contractId ≠ id.symbol)
      (fresh : hash ∉ joint.world.chain.included) :
      Step host config ours joint (.other auths call)
        { joint with world := joint.world.entered host auths call hash }
  | tokens {joint : Joint τ} {tokens : τ} {hash : TxHash}
      (fresh : hash ∉ joint.world.chain.included) :
      Step host config ours joint .tokens
        { joint with world :=
          { joint.world with chain := joint.world.chain.pass host tokens hash } }
  | elsewhere {joint : Joint τ} {users : Table User.id} {jobs : Table Job.id}
      {notifications : List Notification} :
      Step host config ours joint .elsewhere
        { joint with world :=
          { joint.world with db := { joint.world.db with users, jobs, notifications } } }

/-- Before the first contract: nothing in the tables, and the escrow contract just
deployed. -/
structure Joint.Started (joint : Joint τ) : Prop where
  contracts : joint.world.db.contracts.rows = []
  milestones : joint.world.db.milestones.rows = []
  payments : joint.world.db.payments.rows = []
  ledger : ∃ ttl tokens, joint.world.chain.ledger = Escrow.Ledger.deployed ttl tokens
  issued : joint.issued = []

/-- What holds throughout. -/
structure Joint.Sound (config : Config) (ours : Uuid → Prop) (joint : Joint τ) : Prop where
  linked : joint.world.Linked
  books : ∀ id, ours id → (joint.world.dossier id).Books config.numbers
  shaped : ∀ id call, (id, call) ∈ joint.issued → ∃ amounts, FundCall config id amounts call
  handed : ∀ id call, (id, call) ∈ joint.issued → ours id →
    (joint.world.dossier id).row ≠ none ∧
      FundCall config id (joint.world.dossier id).amounts call

variable {joint joint' : Joint τ} {label : Label} {id : Uuid}

theorem Joint.Started.dossier (started : joint.Started) (id : Uuid) :
    joint.world.dossier id = .unknown := by
  obtain ⟨ttl, tokens, deployed⟩ := started.ledger
  unfold World.dossier dossierOf Db.milestonesOf Db.paymentsOf Table.find Table.select
  rw [started.contracts, started.milestones, started.payments, deployed]
  rfl

theorem Joint.Started.sound (started : joint.Started) : joint.Sound config ours := by
  have nothing : ∀ {β : Type} (x : β) (xs : List β), xs = [] → x ∉ xs := by
    rintro β x _ rfl
    exact List.not_mem_nil
  refine ⟨⟨?_, ?_⟩, ?_, ?_, ?_⟩
  · intro payment member
    exact absurd member (nothing _ _ started.payments)
  · intro payment member
    exact absurd member (nothing _ _ started.payments)
  · intro id _
    rw [started.dossier]
    exact Dossier.unknown_books _
  · intro id call member
    exact absurd member (nothing _ _ started.issued)
  · intro id call member
    exact absurd member (nothing _ _ started.issued)

/-- The act of a step, where it is one. -/
def Label.act : Label → Option Dossier.Act
  | .request endpoint => some endpoint.act
  | .fund .. => some .funded
  | .other .. | .tokens | .elsewhere => none

theorem FundCall.contractId {amounts : List Nat} {call : ChainCall} (funds : FundCall config id amounts call) :
    call.contractId = id.symbol := by
  cases funds
  rfl

/-- A funding that fails does nothing, and one that succeeds opens the entry. -/
theorem fund_dossier {w : World τ} {auths : Finset Address} {call : ChainCall} {hash : TxHash}
    (known : (w.dossier id).row ≠ none) (funds : FundCall config id (w.dossier id).amounts call) :
    (¬ w.chain.Succeeds host auths call ∧ (w.entered host auths call hash).dossier id = w.dossier id) ∨
      w.chain.Succeeds host auths call ∧
        (w.dossier id).Step config.numbers .funded ((w.entered host auths call hash).dossier id) := by
  by_cases succeeds : w.chain.Succeeds host auths call
  · right
    refine ⟨succeeds, ?_⟩
    obtain ⟨row, found⟩ := Option.ne_none_iff_exists'.mp known
    cases funds with
    | @intro client freelancer admin token stroops amount key deposit same =>
      obtain ⟨positive, absent, stored, pulled⟩ := Escrow.fund_opened succeeds
      have after : (w.entered host auths (.fund id.symbol client freelancer admin amount token)
          hash).dossier id =
          { w.dossier id with entry := some (.opened client freelancer admin amount token) } := by
        unfold World.dossier dossierOf World.entered Chain.enter
        rw [stored, Escrow.paidOut_pulled pulled]
      rw [after]
      exact .funded found absent positive deposit same
  · exact .inl ⟨succeeds, dossierOf_failed succeeds⟩

/-- A submitted funding touches the contract it was handed out for, if any. -/
theorem fund_touches {key : Uuid} {auths : Finset Address} {call : ChainCall} {hash : TxHash}
    (sound : joint.Sound config ours)
    (step : Joint.Step host config ours joint (.fund key auths call hash) joint') :
    (∀ id ≠ key, joint'.world.dossier id = joint.world.dossier id) ∧
      (ours key →
        (¬ joint.world.chain.Succeeds host auths call ∧
          joint'.world.dossier key = joint.world.dossier key) ∨
        joint.world.chain.Succeeds host auths call ∧
          (joint.world.dossier key).Step config.numbers .funded (joint'.world.dossier key)) := by
  cases step with
  | fund handed fresh =>
    constructor
    · intro id other
      obtain ⟨amounts, funds⟩ := sound.shaped key call handed
      apply dossierOf_other
      rw [funds.contractId]
      exact fun same => other (symbol_injective same)
    · intro mine
      obtain ⟨known, funds⟩ := sound.handed key call handed mine
      exact fund_dossier known funds

theorem step_dossier (sound : joint.Sound config ours) (mine : ours id)
    (step : Joint.Step host config ours joint label joint') :
    joint'.world.dossier id = joint.world.dossier id ∨
      ∃ act, label.act = some act ∧
        (joint.world.dossier id).Step config.numbers act (joint'.world.dossier id) := by
  cases label with
  | request endpoint =>
    cases step with
    | request ran =>
      obtain ⟨w₁, notes, effect, rfl⟩ := completes_leaves ran
      rcases effect_touches sound.linked effect with same | ⟨touched, others, takes⟩
      · exact .inl (same id)
      · by_cases here : id = touched
        · subst here
          exact .inr ⟨_, rfl, takes (sound.books id mine)⟩
        · exact .inl (others id here)
  | fund key auths call hash =>
    obtain ⟨others, own⟩ := fund_touches sound step
    by_cases here : id = key
    · subst here
      rcases own mine with ⟨_, same⟩ | ⟨_, opened⟩
      · exact .inl same
      · exact .inr ⟨_, rfl, opened⟩
    · exact .inl (others id here)
  | other auths call =>
    cases step with
    | other foreign => exact .inl (dossierOf_other (foreign id mine).symm)
  | tokens =>
    cases step
    exact .inl rfl
  | elsewhere =>
    cases step
    exact .inl rfl

/-- A known contract stays known, with the amounts of its milestones. -/
theorem Dossier.Step.keeps {numbers : Numbers} {d d' : Dossier} {act : Dossier.Act}
    (step : d.Step numbers act d') (known : d.row ≠ none) : d'.row ≠ none ∧ d'.amounts = d.amounts := by
  cases step with
  | created absent => exact absurd absent known
  | funded => exact ⟨known, rfl⟩
  | confirmed => exact ⟨Option.some_ne_none _, rfl⟩
  | submitted => exact ⟨known, amounts_mark⟩
  | approved => exact ⟨Option.some_ne_none _, mark_amounts ..⟩
  | disputed => exact ⟨Option.some_ne_none _, rfl⟩
  | resolved => exact ⟨Option.some_ne_none _, rfl⟩
  | cancelled => exact ⟨Option.some_ne_none _, rfl⟩
  | refunded => exact ⟨Option.some_ne_none _, rfl⟩
  | unresolved => exact ⟨known, rfl⟩
  | unrefunded => exact ⟨known, rfl⟩

/-- Only `create` hands out a transaction, for the contract it made. -/
theorem handedOut_request {w w' : World τ} {endpoint : Endpoint} {result : Except Failure Response}
    {call : ChainCall} (books : ours id → (w.dossier id).Books config.numbers)
    (ran : Completes host w (handle config endpoint) result w')
    (handed : (id, call) ∈ handedOut result) :
    ∃ amounts, FundCall config id amounts call ∧
      (ours id → (w'.dossier id).row ≠ none ∧ (w'.dossier id).amounts = amounts) := by
  cases endpoint with
  | create clientId dto =>
    obtain ⟨w₁, notes, effect, rfl⟩ := create_leaves ran
    cases effect with
    | nothing => contradiction
    | failed => contradiction
    | @created _ key _ milestoneIds db _ held created issued =>
      have answered : ∃ view, result = .ok (.created view (some call)) ∧ view.id = id := by
        unfold handedOut at handed
        split at handed
        · rename_i view call'
          cases List.mem_singleton.mp handed
          exact ⟨view, rfl, rfl⟩
        · contradiction
      obtain ⟨view, answered, rfl⟩ := answered
      obtain ⟨rfl, funds⟩ := issued view call answered
      refine ⟨_, funds, fun mine => ?_⟩
      obtain ⟨sameLength, absent, stored, _, _, _, milestones⟩ := Db.create_some created
      obtain ⟨none, _, _⟩ := (books mine).unknown absent
      refine ⟨Dossier.known stored, ?_⟩
      rw [← planned_amounts sameLength]
      exact congrArg (List.map Milestone.amount)
        ((milestones _).trans (by rw [if_pos rfl, show w.db.milestonesOf _ = [] from none]; rfl))
  | confirmFund | submitMilestone | approveMilestone | dispute | resolveDispute | cancel =>
    obtain ⟨first, rfl, _⟩ := Process.completes_map.mp ran
    cases first <;> contradiction

theorem step_sound (sound : joint.Sound config ours)
    (step : Joint.Step host config ours joint label joint') : joint'.Sound config ours := by
  have books : ∀ id, ours id → (joint'.world.dossier id).Books config.numbers := by
    intro id mine
    rcases step_dossier sound mine step with same | ⟨act, _, taken⟩
    · exact same ▸ sound.books id mine
    · exact Dossier.step_books (sound.books id mine) taken
  have kept : ∀ id, ours id → (joint.world.dossier id).row ≠ none →
      (joint'.world.dossier id).row ≠ none ∧
        (joint'.world.dossier id).amounts = (joint.world.dossier id).amounts := by
    intro id mine known
    rcases step_dossier sound mine step with same | ⟨act, _, taken⟩
    · rw [same]
      exact ⟨known, rfl⟩
    · exact taken.keeps known
  have linked : joint'.world.Linked := by
    cases step with
    | request ran =>
      obtain ⟨w₁, notes, effect, rfl⟩ := completes_leaves ran
      exact { effect_linked sound.linked effect with }
    | fund => exact sound.linked.sent rfl fun _ => List.mem_append_left _
    | other => exact sound.linked.sent rfl fun _ => List.mem_append_left _
    | tokens => exact sound.linked.sent rfl fun _ => List.mem_append_left _
    | elsewhere => exact { sound.linked with }
  have earlier : ∀ id call, (id, call) ∈ joint.issued → ours id →
      (joint'.world.dossier id).row ≠ none ∧
        FundCall config id (joint'.world.dossier id).amounts call := by
    intro id call handed mine
    obtain ⟨known, funds⟩ := sound.handed id call handed mine
    obtain ⟨known', same⟩ := kept id mine known
    exact ⟨known', same ▸ funds⟩
  refine ⟨linked, books, ?_, ?_⟩
  · intro id call handed
    cases step with
    | request ran =>
      rcases List.mem_append.mp handed with before | new
      · exact sound.shaped id call before
      · obtain ⟨amounts, funds, _⟩ := handedOut_request (sound.books id) ran new
        exact ⟨amounts, funds⟩
    | fund | other | tokens | elsewhere => exact sound.shaped id call handed
  · intro id call handed mine
    cases step with
    | request ran =>
      rcases List.mem_append.mp handed with before | new
      · exact earlier id call before mine
      · obtain ⟨amounts, funds, fresh⟩ := handedOut_request (sound.books id) ran new
        obtain ⟨known, rfl⟩ := fresh mine
        exact ⟨known, funds⟩
    | fund | other | tokens | elsewhere => exact earlier id call handed mine

end Stellance.Backend
