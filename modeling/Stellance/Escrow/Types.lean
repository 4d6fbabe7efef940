import Stellance.Library.CheckedInt
import Mathlib.Data.Finmap

/-! The data of the escrow contract and of the host it runs on. Addresses and
symbols are host values the contract only compares, so they are type parameters.
The token contracts are outside the repository: the host gives their state, what
they answer and nothing else. -/
namespace Stellance.Escrow

/-- Rust's `i128`. -/
abbrev I128 := CheckedInt (-2 ^ 127) (2 ^ 127 - 1)

def I128.zero : I128 := ⟨0, by norm_num, by norm_num⟩

/-- `i128::from(u32)` -/
def I128.fromU32 (n : UInt32) : I128 :=
  ⟨n.toNat, by omega, by have := n.toNat_lt; omega⟩

@[simp] theorem I128.val_zero : I128.zero.val = 0 := rfl

@[simp] theorem I128.val_fromU32 (n : UInt32) : (I128.fromU32 n).val = n.toNat := rfl

inductive EscrowStatus where
  | funded
  | released
  | refunded
  | disputed
  | resolved
  deriving DecidableEq

structure EscrowEntry (Address : Type) where
  client : Address
  freelancer : Address
  totalAmount : I128
  releasedAmount : I128
  token : Address
  status : EscrowStatus
  admin : Address
  deriving DecidableEq

inductive DisputeDecision where
  | releaseToFreelancer
  | refundToClient
  | split
  deriving DecidableEq

inductive EscrowError where
  | notFound
  | alreadyFunded
  | invalidState
  | unauthorized
  | invalidSplitBps
  | overflow
  | invalidAmount
  deriving DecidableEq

/-- Why a body stopped: an error it returned, or a trap of the host (a missing
authorisation, a token contract that panicked, an arithmetic panic). -/
inductive Stop where
  | err (error : EscrowError)
  | trap
  deriving DecidableEq

/-- The events of the contract, with the topics folded into the constructor. -/
inductive Event (Address Symbol : Type) where
  | fund (contractId : Symbol) (client freelancer : Address) (amount : I128) (token : Address)
  | releaseMs (contractId : Symbol) (freelancer : Address) (milestoneAmount releasedAmount : I128)
  | release (contractId : Symbol) (freelancer : Address) (remaining : I128)
  | refund (contractId : Symbol) (client : Address) (remaining : I128)
  | dispute (contractId : Symbol) (caller : Address)
  | resolve (contractId : Symbol) (decision : DisputeDecision) (freelancerBps : UInt32)
  deriving DecidableEq

/-- The calls the contract makes to a token, both on its own behalf. -/
inductive TokenCall (Address : Type) where
  | transfer (token recipient : Address) (amount : I128)
  | transferFrom (token client : Address) (amount : I128)
  deriving DecidableEq

/-- The host and its token contracts, whose joint state is a `τ`. A transfer that
answers `none` has panicked. -/
structure Host (Address τ : Type) where
  currentContractAddress : Address
  balance : τ → (token owner : Address) → Int
  transfer : τ → (token sender recipient : Address) → I128 → Option τ
  transferFrom : τ → (token spender sender recipient : Address) → I128 → Option τ
  /-- Ledgers a newly stored entry lives without an extension. -/
  newEntryTtl : Nat

/-- What outlives an invocation. `DataKey` has the one constructor `Escrow`, so
persistent storage is keyed by the contract id itself. -/
structure State (Address Symbol τ : Type) where
  entries : Finmap fun _ : Symbol => EscrowEntry Address
  ttl : Symbol → Nat
  tokens : τ

/-- What a body sees: the authorisations of its invocation, the state it may
write, and what it has done so far. -/
structure Env (Address Symbol τ : Type) where
  auths : Finset Address
  state : State Address Symbol τ
  tokenCalls : List (TokenCall Address)
  events : List (Event Address Symbol)

end Stellance.Escrow
