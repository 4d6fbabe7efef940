import Stellance.Escrow.Independence

/-! Splitting what is left of a disputed entry. The freelancer's share is rounded down to
a whole unit and the client gets the rest, so no unit is lost, and at the two ends a
split makes the transfers of the other two resolutions. -/
namespace Stellance.Escrow
variable {Address Symbol τ : Type} [DecidableEq Address] [DecidableEq Symbol]

/-- What an entry has not paid out. -/
def EscrowEntry.remaining (entry : EscrowEntry Address) : Int :=
  entry.totalAmount.val - entry.releasedAmount.val

/-- The freelancer's part of what remains, in whole units. -/
def freelancerShare (remaining : Int) (freelancerBps : Nat) : Int :=
  remaining * freelancerBps / 10000

theorem freelancerShare_mono {remaining more : Int} {bps higher : Nat} (nonneg : 0 ≤ remaining)
    (left : remaining ≤ more) (rate : bps ≤ higher) :
    freelancerShare remaining bps ≤ freelancerShare more higher := by
  have product : remaining * bps ≤ more * higher :=
    Int.mul_le_mul left (Int.ofNat_le.mpr rate) (Int.natCast_nonneg bps) (nonneg.trans left)
  exact Int.ediv_le_ediv (by omega) product

theorem freelancerShare_bounds {remaining : Int} {bps : Nat} (nonneg : 0 ≤ remaining)
    (percentage : bps ≤ 10000) :
    10000 * freelancerShare remaining bps ≤ remaining * bps ∧
      remaining * bps < 10000 * (freelancerShare remaining bps + 1) ∧
      0 ≤ freelancerShare remaining bps ∧ 0 ≤ remaining - freelancerShare remaining bps := by
  have low : 0 ≤ remaining * bps := Int.mul_nonneg nonneg (Int.natCast_nonneg bps)
  have high : remaining * bps ≤ remaining * 10000 :=
    Int.mul_le_mul_of_nonneg_left (by omega) nonneg
  unfold freelancerShare
  omega

/-! ### The arms -/

section Arms
variable {entry : EscrowEntry Address} {remaining : I128} {bps : UInt32}
  {payouts : List (Payout Address)} {status : EscrowStatus}
omit [DecidableEq Address]

theorem Arm.shares (arm : Arm entry remaining bps .split payouts status) (nonneg : 0 ≤ remaining.val) :
    bps.toNat ≤ 10000 ∧ status = .resolved ∧ ∃ freelancerAmount clientAmount : I128,
      freelancerAmount.val = freelancerShare remaining.val bps.toNat ∧
      clientAmount.val = remaining.val - freelancerShare remaining.val bps.toNat ∧
      payouts = positivePay entry.freelancer freelancerAmount ++
        positivePay entry.client clientAmount := by
  cases arm with
  | split percentage product freelancerAmount clientAmount multiplied divided rest =>
    have low : 0 ≤ product.val := by
      rw [multiplied]
      exact Int.mul_nonneg nonneg (Int.natCast_nonneg _)
    have share : freelancerAmount.val = freelancerShare remaining.val bps.toNat := by
      rw [divided, Int.tdiv_eq_ediv_of_nonneg low, multiplied]
      rfl
    exact ⟨percentage, rfl, freelancerAmount, clientAmount, share, by rw [rest, share], rfl⟩

theorem positivePay_zero {party : Address} {amount : I128} (zero : amount.val = 0) :
    positivePay party amount = [] := by
  rw [positivePay, if_neg (by omega)]

/-- With every basis point the split pays what a release to the freelancer pays. -/
theorem Arm.all_to_freelancer (arm : Arm entry remaining bps .split payouts status)
    (nonneg : 0 ≤ remaining.val) (all : bps = 10000) :
    payouts = positivePay entry.freelancer remaining := by
  obtain ⟨_, _, freelancerAmount, clientAmount, share, rest, rfl⟩ := arm.shares nonneg
  have whole : freelancerShare remaining.val bps.toNat = remaining.val := by
    rw [all]
    exact Int.mul_ediv_cancel remaining.val (by decide)
  rw [whole] at share rest
  rw [positivePay_zero (rest.trans (Int.sub_self _)), List.append_nil,
    CheckedInt.ext_val share]

/-- With no basis point the split pays what a refund to the client pays. -/
theorem Arm.all_to_client (arm : Arm entry remaining bps .split payouts status)
    (nonneg : 0 ≤ remaining.val) (none : bps = 0) : payouts = positivePay entry.client remaining := by
  obtain ⟨_, _, freelancerAmount, clientAmount, share, rest, rfl⟩ := arm.shares nonneg
  have nothing : freelancerShare remaining.val bps.toNat = 0 := by
    rw [none]
    simp [freelancerShare]
  rw [nothing] at share rest
  rw [positivePay_zero share, List.nil_append, CheckedInt.ext_val (rest.trans (Int.sub_zero _))]

end Arms

/-! ### Calls that succeed -/

variable {host : Host Address τ} {ledger : Ledger Address Symbol τ} {id : Symbol}
  {entry : EscrowEntry Address} {auths : Finset Address} {caller : Address} {call : Call Address Symbol}
  {env : Env Address Symbol τ} {bps : UInt32}

theorem settles_of_ok (known : call.isFund = false)
    (succeeds : (invoke host auths call ledger.state).1.outcome = .ok) :
    ∃ env, Settles host call (enter auths ledger.state) env ∧
      (ledger.act host (.call auths call)).state = env.state := by
  simp only [Ledger.act, invoke] at succeeds ⊢
  split at succeeds
  · rename_i env returned
    rcases body_ok.mp returned with opens | settles
    · cases opens
      contradiction
    · exact ⟨env, settles, rfl⟩
  · contradiction

theorem ok_of_settles (settles : Settles host call (enter auths ledger.state) env) :
    (invoke host auths call ledger.state).1.outcome = .ok ∧
      (ledger.act host (.call auths call)).state = env.state := by
  have returned := (body_ok (u := ())).mpr (.inr settles)
  simp only [Ledger.act, invoke, returned, and_self]

/-- Two resolutions of one entry that make the same payouts leave the same balances. -/
theorem resolutions_agree {decision decision' : DisputeDecision} (bps' : UInt32) {remaining : I128}
    {payouts : List (Payout Address)} {status status' : EscrowStatus}
    (settles : Settles host (.resolveDispute id caller decision bps) (enter auths ledger.state) env)
    (found : ledger.entry id = some entry) (left : remaining.val = entry.remaining)
    (first : Arm entry remaining bps decision payouts status)
    (second : Arm entry remaining bps' decision' payouts status') :
    (invoke host auths (.resolveDispute id caller decision' bps') ledger.state).1.outcome = .ok ∧
      (ledger.act host (.call auths (.resolveDispute id caller decision' bps'))).state.tokens =
        env.state.tokens := by
  cases settles with
  | intro authorised earlier moves paid =>
    obtain rfl := Option.some.inj (earlier.symm.trans found)
    cases moves with
    | resolve disputed allowed remaining' left' arm =>
      obtain rfl : remaining = remaining' := CheckedInt.ext_val (left.trans left'.symm)
      obtain ⟨rfl, rfl⟩ := arm.unique first
      have other : Settles host (.resolveDispute id caller decision' bps')
          (enter auths ledger.state) _ :=
        .intro authorised earlier (.resolve disputed allowed remaining left second) paid
      obtain ⟨outcome, state⟩ := ok_of_settles other
      exact ⟨outcome, by rw [state]; rfl⟩

theorem deltas_append {self T owner : Address} {first second : List (TokenCall Address)} :
    deltas self T owner (first ++ second) = deltas self T owner first + deltas self T owner second := by
  simp only [deltas, List.map_append, List.sum_append]

theorem deltas_positivePay {self T owner token party : Address} {amount : I128}
    (nonneg : 0 ≤ amount.val) :
    deltas self T owner ((positivePay party amount).map fun payout => .transfer token payout.1 payout.2) =
      if token = T then shift self party amount.val owner else 0 := by
  unfold positivePay
  split
  · simp [deltas, TokenCall.delta]
  · have zero : amount.val = 0 := by omega
    simp [deltas, shift, zero]

/-- A split that succeeds pays the freelancer the share of what remains, rounded down, and
the client the rest; the share grows with the rate and with what remains; and at either
end of the rate the balances are those of the other resolution. -/
theorem split_exact (reached : Reachable host ledger) (exact' : ExactToken host entry.token)
    (found : getEscrow id ledger.state = some entry) (disputed : entry.status = .disputed)
    (succeeds : (invoke host auths (.resolveDispute id caller .split bps) ledger.state).1.outcome = .ok) :
    (10000 * freelancerShare entry.remaining bps.toNat ≤ entry.remaining * bps.toNat ∧
      entry.remaining * bps.toNat < 10000 * (freelancerShare entry.remaining bps.toNat + 1) ∧
      0 ≤ freelancerShare entry.remaining bps.toNat ∧
      0 ≤ entry.remaining - freelancerShare entry.remaining bps.toNat) ∧
    (∀ T owner, host.balance
        (ledger.act host (.call auths (.resolveDispute id caller .split bps))).state.tokens T owner =
      host.balance ledger.state.tokens T owner + if entry.token = T then
        shift host.currentContractAddress entry.freelancer
            (freelancerShare entry.remaining bps.toNat) owner +
          shift host.currentContractAddress entry.client
            (entry.remaining - freelancerShare entry.remaining bps.toNat) owner else 0) ∧
    (∀ key, getEscrow key (ledger.act host (.call auths (.resolveDispute id caller .split bps))).state =
      if key = id then some { entry with status := .resolved } else getEscrow key ledger.state) ∧
    (∀ more higher, entry.remaining ≤ more → bps.toNat ≤ higher →
      freelancerShare entry.remaining bps.toNat ≤ freelancerShare more higher) ∧
    (bps = 10000 → ∀ bps' : UInt32,
      (invoke host auths (.resolveDispute id caller .releaseToFreelancer bps')
        ledger.state).1.outcome = .ok ∧
      ∀ T owner, host.balance
          (ledger.act host (.call auths (.resolveDispute id caller .split bps))).state.tokens T owner =
        host.balance (ledger.act host
          (.call auths (.resolveDispute id caller .releaseToFreelancer bps'))).state.tokens T owner) ∧
    (bps = 0 → ∀ bps' : UInt32,
      (invoke host auths (.resolveDispute id caller .refundToClient bps')
        ledger.state).1.outcome = .ok ∧
      ∀ T owner, host.balance
          (ledger.act host (.call auths (.resolveDispute id caller .split bps))).state.tokens T owner =
        host.balance (ledger.act host
          (.call auths (.resolveDispute id caller .refundToClient bps'))).state.tokens T owner) := by
  have bounded := (reachable_wellFormed reached id entry found).bounded
  have nonneg : 0 ≤ entry.remaining := Int.sub_nonneg_of_le bounded
  obtain ⟨env, settles, state⟩ := settles_of_ok rfl succeeds
  rw [state]
  have settled := settles
  cases settles with
  | intro authorised earlier moves paid =>
    obtain rfl := Option.some.inj (earlier.symm.trans found)
    cases moves with
    | resolve _ allowed remaining left arm =>
      have left : remaining.val = EscrowEntry.remaining _ := left
      obtain ⟨percentage, rfl, freelancerAmount, clientAmount, share, rest, pays⟩ :=
        arm.shares (left ▸ nonneg)
      have bounds := freelancerShare_bounds nonneg percentage
      rw [left] at share rest
      refine ⟨bounds, ?_, ?_, fun more higher => freelancerShare_mono nonneg, ?_, ?_⟩
      · intro T owner
        have moved := payAll_exact exact' paid T owner
        rw [pays, List.map_append, deltas_append, deltas_positivePay (share ▸ bounds.2.2.1),
          deltas_positivePay (rest ▸ bounds.2.2.2), share, rest] at moved
        refine moved.trans ?_
        split <;> rfl
      · intro key
        exact stored_entry _ _ [] key
      · intro all bps'
        have same := arm.all_to_freelancer (left ▸ nonneg) all
        obtain ⟨outcome, tokens⟩ := resolutions_agree bps' settled found left (same ▸ arm)
          .releaseToFreelancer
        exact ⟨outcome, fun T owner => by rw [tokens]⟩
      · intro none bps'
        have same := arm.all_to_client (left ▸ nonneg) none
        obtain ⟨outcome, tokens⟩ := resolutions_agree bps' settled found left (same ▸ arm)
          .refundToClient
        exact ⟨outcome, fun T owner => by rw [tokens]⟩

/-- A milestone of 300 is paid, and then the parties disagree about the other 700. -/
def Bank.disputing : List (Action Nat Nat (Bank Nat)) := releasing ++ [.call {2} (.dispute 7 2)]

/-- A third of 700, rounded down. -/
theorem split_exact_bank :
    (Bank.host 0).balance ((Bank.ledger Bank.disputing).act (Bank.host 0)
        (.call {3} (.resolveDispute 7 3 .split 3333))).state.tokens 9 2 =
      (Bank.host 0).balance (Bank.ledger Bank.disputing).state.tokens 9 2 + 233 := by
  have found : getEscrow 7 (Bank.ledger Bank.disputing).state =
      some ⟨1, 2, .fromU32 1000, .fromU32 300, 9, .disputed, 3⟩ := by decide
  have succeeds : (invoke (Bank.host 0) {3} (.resolveDispute 7 3 .split 3333)
      (Bank.ledger Bank.disputing).state).1.outcome = .ok := by decide
  have paid :=
    (split_exact (Bank.ledger_reachable Bank.disputing) bank_exact found rfl succeeds).2.1 9 2
  exact paid.trans (congrArg _ (by decide))

end Stellance.Escrow
