import Stellance.Escrow.Bank

/-! What the contract relies on of a token, and a bank that keeps to it. -/
namespace Stellance.Escrow
variable {Address Symbol τ : Type} [DecidableEq Address] [DecidableEq Symbol]

/-- What a balance changes by when an amount moves from a sender to a recipient. -/
def shift (sender recipient : Address) (amount : Int) (owner : Address) : Int :=
  (if owner = recipient then amount else 0) - if owner = sender then amount else 0

/-- What the contract relies on of a token: balances are not negative, transfers move
exactly the amount, and no other token takes from the contract's balance. -/
structure TokenLaws (host : Host Address τ) (T : Address) : Prop where
  nonneg : ∀ tokens owner, 0 ≤ host.balance tokens T owner
  transfer_exact : ∀ tokens sender recipient amount moved,
    host.transfer tokens T sender recipient amount = some moved → ∀ owner,
      host.balance moved T owner =
        host.balance tokens T owner + shift sender recipient amount.val owner
  transferFrom_exact : ∀ tokens spender sender recipient amount moved,
    host.transferFrom tokens T spender sender recipient amount = some moved → ∀ owner,
      host.balance moved T owner =
        host.balance tokens T owner + shift sender recipient amount.val owner
  transfer_apart : ∀ tokens token sender recipient amount moved, token ≠ T →
    host.transfer tokens token sender recipient amount = some moved →
      host.balance tokens T host.currentContractAddress ≤
        host.balance moved T host.currentContractAddress
  transferFrom_apart : ∀ tokens token spender sender recipient amount moved, token ≠ T →
    host.transferFrom tokens token spender sender recipient amount = some moved →
      host.balance tokens T host.currentContractAddress ≤
        host.balance moved T host.currentContractAddress

/-- Nobody else lowers the contract's balance, and the contract funds nothing itself. -/
def Fair (host : Host Address τ) (T : Address) (ledger : Ledger Address Symbol τ) :
    Action Address Symbol τ → Prop
  | .outside tokens => host.balance ledger.state.tokens T host.currentContractAddress ≤
      host.balance tokens T host.currentContractAddress
  | .call auths (.fund _ client ..) =>
      client = host.currentContractAddress → host.currentContractAddress ∉ auths
  | .call .. => True

/-- A transfer out of a balance that covers it succeeds. -/
def Covers (host : Host Address τ) (T : Address) : Prop :=
  ∀ tokens recipient (amount : I128), 0 < amount.val →
    amount.val ≤ host.balance tokens T host.currentContractAddress →
    (host.transfer tokens T host.currentContractAddress recipient amount).isSome

/-! ### The bank -/

section Bank
variable {bank moved : Bank Nat} {token sender recipient spender self : Nat} {amount : I128}

theorem bank_transfer (paid : bank.transfer token sender recipient amount = some moved) (t owner : Nat) :
    (moved.balance t owner : Int) = bank.balance t owner +
      if t = token then shift sender recipient amount.val owner else 0 := by
  unfold Bank.transfer at paid
  split at paid
  · rename_i covered
    obtain rfl := Option.some.inj paid
    have exact' := Int.toNat_of_nonneg covered.1
    by_cases same : t = token
    · subst same
      simp only [Bank.move, shift, true_and, if_true]
      by_cases out : owner = sender
      · subst out
        split <;> simp only [if_true] <;> omega
      · simp only [if_neg out]
        split <;> omega
    · simp [Bank.move, same]
  · contradiction

theorem bank_transferFrom (pulled : bank.transferFrom token spender sender recipient amount = some moved)
    (t owner : Nat) :
    (moved.balance t owner : Int) = bank.balance t owner +
      if t = token then shift sender recipient amount.val owner else 0 := by
  unfold Bank.transferFrom at pulled
  split at pulled
  · obtain ⟨between, paid, rfl⟩ := Option.map_eq_some_iff.mp pulled
    exact bank_transfer paid t owner
  · contradiction

theorem bank_laws : TokenLaws (Bank.host self) token where
  nonneg _ _ := Int.natCast_nonneg _
  transfer_exact _ _ _ _ _ paid owner := by
    exact (bank_transfer paid token owner).trans (by rw [if_pos rfl]; rfl)
  transferFrom_exact _ _ _ _ _ _ pulled owner := by
    exact (bank_transferFrom pulled token owner).trans (by rw [if_pos rfl]; rfl)
  transfer_apart _ _ _ _ _ _ different paid := by
    have same := bank_transfer paid token self
    rw [if_neg different.symm, Int.add_zero] at same
    exact le_of_eq same.symm
  transferFrom_apart _ _ _ _ _ _ _ different pulled := by
    have same := bank_transferFrom pulled token self
    rw [if_neg different.symm, Int.add_zero] at same
    exact le_of_eq same.symm

theorem bank_covers : Covers (Bank.host self) token := by
  intro bank recipient amount positive enough
  change (Bank.transfer bank token self recipient amount).isSome
  unfold Bank.transfer
  rw [if_pos ⟨le_of_lt positive, enough⟩]
  rfl

/-- Calls in which the contract's address takes no part are fair to every token. -/
theorem bank_fair {actions : List (Action Nat Nat (Bank Nat))}
    {trace : List (Ledger Nat Nat (Bank Nat) × Action Nat Nat (Bank Nat))}
    (same : trace.map Prod.snd = actions)
    (calls : ∀ action ∈ actions, ∃ auths call, action = .call auths call ∧ 0 ∉ auths) :
    ∀ point ∈ trace, Fair (Bank.host 0) token point.1 point.2 := by
  rintro ⟨ledger, action⟩ member
  have listed : action ∈ actions := same ▸ List.mem_map_of_mem member
  obtain ⟨auths, call, rfl, absent⟩ := calls action listed
  cases call with
  | fund => exact fun _ => absent
  | _ => trivial

end Bank

end Stellance.Escrow
