import Stellance.Escrow.Calls

/-! A token in the manner of the standard one: balances, allowances, and transfers
that move exactly the amount or nothing. It shows that what the contract assumes
of its tokens can be met, and gives the contract something to run on. -/
namespace Stellance.Escrow

structure Bank (Address : Type) where
  balance : (token owner : Address) → Nat
  allowance : (token owner spender : Address) → Nat

namespace Bank
variable {Address : Type} [DecidableEq Address]

/-- The recipient is credited first, so a transfer to oneself changes nothing. -/
def move (bank : Bank Address) (token sender recipient : Address) (amount : Nat) : Bank Address :=
  { bank with
    balance := fun t owner =>
      (bank.balance t owner + if t = token ∧ owner = recipient then amount else 0)
        - if t = token ∧ owner = sender then amount else 0 }

def transfer (bank : Bank Address) (token sender recipient : Address) (amount : I128) :
    Option (Bank Address) :=
  if 0 ≤ amount.val ∧ amount.val ≤ bank.balance token sender then
    some (bank.move token sender recipient amount.val.toNat)
  else none

def spend (bank : Bank Address) (token owner spender : Address) (amount : Nat) : Bank Address :=
  { bank with
    allowance := fun t o s =>
      bank.allowance t o s - if t = token ∧ o = owner ∧ s = spender then amount else 0 }

def transferFrom (bank : Bank Address) (token spender sender recipient : Address) (amount : I128) :
    Option (Bank Address) :=
  if amount.val ≤ bank.allowance token sender spender then
    (bank.transfer token sender recipient amount).map
      (·.spend token sender spender amount.val.toNat)
  else none

/-- The escrow contract at address `self`, on the bank. -/
def host (self : Address) : Host Address (Bank Address) where
  currentContractAddress := self
  balance bank token owner := bank.balance token owner
  transfer := Bank.transfer
  transferFrom := Bank.transferFrom
  newEntryTtl := 4096

/-- Everyone holds `stake` of every token and has approved every spender for it. -/
def endowed (stake : Nat) (self : Address) : Bank Address where
  balance _ owner := if owner = self then 0 else stake
  allowance _ _ _ := stake

/-- The contract at address 0, deployed on an endowed bank and acted on. -/
def ledger (actions : List (Action Nat Nat (Bank Nat))) : Ledger Nat Nat (Bank Nat) :=
  (Ledger.deployed (fun _ => 0) (endowed 1000000 0)).actAll (host 0) actions

theorem ledger_run (actions : List (Action Nat Nat (Bank Nat))) :
    ∃ trace, RunTo (host 0) trace (ledger actions) ∧ trace.map Prod.snd = actions := by
  obtain ⟨trace, run, same⟩ := actAll_run (host 0) actions _
  exact ⟨trace, ⟨_, _, run⟩, same⟩

theorem ledger_reachable (actions : List (Action Nat Nat (Bank Nat))) :
    Reachable (host 0) (ledger actions) := by
  obtain ⟨trace, run, _⟩ := ledger_run actions
  exact ⟨trace, run⟩

/-- Client 1 deposits 1000 of token 9 for freelancer 2, with admin 3. -/
def funding : Action Nat Nat (Bank Nat) := .call {1} (.fund 7 1 2 3 (.fromU32 1000) 9)

/-- The admin releases a milestone of 300. -/
def releasing : List (Action Nat Nat (Bank Nat)) :=
  [funding, .call {3} (.releaseMilestone 7 3 (.fromU32 300))]

/-- The parties then disagree and the admin halves the rest. -/
def splitting : List (Action Nat Nat (Bank Nat)) :=
  releasing ++ [.call {2} (.dispute 7 2), .call {3} (.resolveDispute 7 3 .split 5000)]

end Bank
end Stellance.Escrow
