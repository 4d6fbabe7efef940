import Stellance.Escrow.Contract
import Stellance.Library.Runs

/-! Invocations of the contract and the ledger they build. An invocation that does
not return `Ok` is rolled back by the host; the ledger keeps a receipt of every
invocation, with what it did. Between invocations the token contracts move on
their own. -/
namespace Stellance.Escrow
variable {Address Symbol τ : Type} [DecidableEq Address] [DecidableEq Symbol]

inductive Call (Address Symbol : Type) where
  | fund (contractId : Symbol) (client freelancer admin : Address) (amount : I128) (token : Address)
  | releaseMilestone (contractId : Symbol) (caller : Address) (milestoneAmount : I128)
  | release (contractId : Symbol) (caller : Address)
  | refund (contractId : Symbol) (caller : Address)
  | dispute (contractId : Symbol) (caller : Address)
  | resolveDispute (contractId : Symbol) (caller : Address) (decision : DisputeDecision)
      (freelancerBps : UInt32)
  deriving DecidableEq

namespace Call

def contractId : Call Address Symbol → Symbol
  | .fund id .. | .releaseMilestone id .. | .release id _ | .refund id _ | .dispute id _
  | .resolveDispute id .. => id

/-- The address whose authorisation the call requires. -/
def caller : Call Address Symbol → Address
  | .fund _ client .. => client
  | .releaseMilestone _ caller _ | .release _ caller | .refund _ caller | .dispute _ caller
  | .resolveDispute _ caller .. => caller

def isFund : Call Address Symbol → Bool
  | .fund .. => true
  | _ => false

def body (host : Host Address τ) : Call Address Symbol → Contract Address Symbol τ Unit
  | .fund id client freelancer admin amount token =>
      Escrow.fund host id client freelancer admin amount token
  | .releaseMilestone id caller amount => Escrow.releaseMilestone host id caller amount
  | .release id caller => Escrow.release host id caller
  | .refund id caller => Escrow.refund host id caller
  | .dispute id caller => Escrow.dispute host id caller
  | .resolveDispute id caller decision bps => Escrow.resolveDispute host id caller decision bps

end Call

inductive Outcome where
  | ok
  | stopped (stop : Stop)
  deriving DecidableEq

/-- What the network records about an invocation. A stopped one has done nothing. -/
structure Receipt (Address Symbol : Type) where
  call : Call Address Symbol
  auths : Finset Address
  outcome : Outcome
  tokenCalls : List (TokenCall Address)
  events : List (Event Address Symbol)
  deriving DecidableEq

def enter (auths : Finset Address) (state : State Address Symbol τ) : Env Address Symbol τ :=
  ⟨auths, state, [], []⟩

def invoke (host : Host Address τ) (auths : Finset Address) (call : Call Address Symbol)
    (state : State Address Symbol τ) : Receipt Address Symbol × State Address Symbol τ :=
  match call.body host (enter auths state) with
  | .ok _ env => (⟨call, auths, .ok, env.tokenCalls, env.events⟩, env.state)
  | .error stop _ => (⟨call, auths, .stopped stop, [], []⟩, state)

structure Ledger (Address Symbol τ : Type) where
  state : State Address Symbol τ
  receipts : List (Receipt Address Symbol)

def Ledger.entry (ledger : Ledger Address Symbol τ) (id : Symbol) :
    Option (EscrowEntry Address) :=
  getEscrow id ledger.state

/-- What may happen to a ledger: an invocation, or a change of the token
contracts in which the escrow contract has no part. -/
inductive Action (Address Symbol τ : Type) where
  | call (auths : Finset Address) (call : Call Address Symbol)
  | outside (tokens : τ)

def Ledger.act (host : Host Address τ) (ledger : Ledger Address Symbol τ) :
    Action Address Symbol τ → Ledger Address Symbol τ
  | .call auths call =>
      let (receipt, state) := invoke host auths call ledger.state
      ⟨state, ledger.receipts ++ [receipt]⟩
  | .outside tokens => ⟨{ ledger.state with tokens }, ledger.receipts⟩

def Step (host : Host Address τ) (before : Ledger Address Symbol τ)
    (action : Action Address Symbol τ) (after : Ledger Address Symbol τ) : Prop :=
  after = before.act host action

/-- The contract as deployed: no entry, no receipt, whatever the tokens hold. -/
def Ledger.deployed (ttl : Symbol → Nat) (tokens : τ) : Ledger Address Symbol τ :=
  ⟨⟨∅, ttl, tokens⟩, []⟩

/-- Runs of the deployed contract. -/
def RunTo (host : Host Address τ) (trace : List (Ledger Address Symbol τ × Action Address Symbol τ))
    (ledger : Ledger Address Symbol τ) : Prop :=
  ∃ ttl tokens, Runs.Run (Step host) (Ledger.deployed ttl tokens) trace ledger

def Reachable (host : Host Address τ) (ledger : Ledger Address Symbol τ) : Prop :=
  ∃ trace, RunTo host trace ledger

theorem Reachable.act {host : Host Address τ} {ledger : Ledger Address Symbol τ}
    (reached : Reachable host ledger) (action : Action Address Symbol τ) :
    Reachable host (ledger.act host action) := by
  obtain ⟨trace, ttl, tokens, run⟩ := reached
  exact ⟨_, ttl, tokens, .tail run rfl⟩

/-- A list of actions, one after the other. -/
def Ledger.actAll (host : Host Address τ) (ledger : Ledger Address Symbol τ)
    (actions : List (Action Address Symbol τ)) : Ledger Address Symbol τ :=
  actions.foldl (·.act host) ledger

theorem actAll_run (host : Host Address τ) (actions : List (Action Address Symbol τ))
    (ledger : Ledger Address Symbol τ) :
    ∃ trace, Runs.Run (Step host) ledger trace (ledger.actAll host actions) ∧
      trace.map Prod.snd = actions := by
  induction actions generalizing ledger with
  | nil => exact ⟨[], .refl, rfl⟩
  | cons action rest ih =>
    obtain ⟨trace, run, same⟩ := ih (ledger.act host action)
    exact ⟨_, .head rfl run, congrArg (action :: ·) same⟩

/-- Tokens that one token call sends out of the contract, to anyone. -/
def TokenCall.sent : TokenCall Address → Int
  | .transfer _ _ amount => amount.val
  | .transferFrom .. => 0

def TokenCall.sentTo (party : Address) : TokenCall Address → Int
  | .transfer _ recipient amount => if recipient = party then amount.val else 0
  | .transferFrom .. => 0

/-- The token calls made under an id, in order. -/
def tokenCalls (receipts : List (Receipt Address Symbol)) (id : Symbol) :
    List (TokenCall Address) :=
  (receipts.filter (·.call.contractId = id)).flatMap Receipt.tokenCalls

/-- Tokens the contract has transferred out under an id. -/
def paidOut (receipts : List (Receipt Address Symbol)) (id : Symbol) : Int :=
  ((tokenCalls receipts id).map TokenCall.sent).sum

def paidTo (receipts : List (Receipt Address Symbol)) (id : Symbol) (party : Address) : Int :=
  ((tokenCalls receipts id).map (TokenCall.sentTo party)).sum

end Stellance.Escrow
