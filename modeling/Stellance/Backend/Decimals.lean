import Stellance.Backend.Withdrawals

/-! Withdrawals in exact decimals. The amount of a request may have any number of decimals,
the payment has seven: what is beyond them is rounded away before anything is sent. -/

namespace Stellance.Backend
open Process (completes_bind completes_throwIf completes_orThrow completes_pure completes_perform
  completes_tryCatch completes_fail)

/-- What Horizon answers to one withdrawal. -/
structure Horizon where
  sequence : Except Failure Nat
  baseFee : Except Failure Nat
  submitted : Except Failure TxHash

namespace Horizon

def answers (horizon : Horizon) : (op : PaymentsService.Op) → Except Failure op.Answer
  | .loadAccount _ => horizon.sequence
  | .fetchBaseFee => horizon.baseFee
  | .submitTransaction _ => horizon.submitted

def received : PaymentsService.Op → List NativePayment
  | .submitTransaction payment => [payment]
  | .loadAccount _ | .fetchBaseFee => []

/-- An answer, and the payments sent to Horizon so far. -/
def Serves (horizon : Horizon) (sent : List NativePayment) (op : PaymentsService.Op)
    (answer : Except Failure op.Answer) (sent' : List NativePayment) : Prop :=
  answer = horizon.answers op ∧ sent' = sent ++ received op

theorem exists_served (horizon : Horizon) (sent : List NativePayment) (op : PaymentsService.Op) :
    ∃ answer sent', horizon.Serves sent op answer sent' :=
  ⟨_, _, rfl, rfl⟩

end Horizon

namespace WithdrawDto

/-- The number that the amount is written for. -/
def value (dto : WithdrawDto) : ℚ := dto.amount.numerator / dto.amount.denominator

/-- Nothing is sent and the request fails, or what was asked is sent and returned as a debit. -/
def PaidExactly (dto : WithdrawDto) (sent : List NativePayment)
    (result : Except Failure WithdrawalTransaction) : Prop :=
  (sent = [] ∧ ∃ error, result = .error error) ∨
  ∃ payment record, sent = [payment] ∧ result = .ok record ∧
    (payment.amount : ℚ) / 10 ^ 7 = dto.value ∧ record.sign = .debit ∧ record.amount = payment.amount

/-- The request gets as far as its submission: the amount is not rounded to nothing, and is no
more than an `Int64` holds. -/
structure Submits (dto : WithdrawDto) (config : Config) (horizon : Horizon) : Prop where
  native : dto.asset = .xlm
  configured : config.adminPublicKey.isSome = true
  loaded : ∃ sequence, horizon.sequence = .ok sequence
  priced : ∃ fee, horizon.baseFee = .ok fee
  least : 1 / 2 ≤ dto.value * 10 ^ 7
  most : dto.value * 10 ^ 7 < 2 ^ 63 - 1 / 2

/-- The amount has no digit beyond the seventh decimal but zeros. -/
def Whole (dto : WithdrawDto) : Prop := ∃ stroops : Nat, dto.value * 10 ^ 7 = stroops

end WithdrawDto

section Exact
variable {config : Config} {isValidEd25519PublicKey : String → Bool} {dto : WithdrawDto} {horizon : Horizon}
  {sent : List NativePayment} {result : Except Failure WithdrawalTransaction} {n : Nat}

theorem WithdrawDto.value_nonneg (dto : WithdrawDto) : 0 ≤ dto.value :=
  div_nonneg (Nat.cast_nonneg _) (Nat.cast_nonneg _)

/-- The stroops that are paid are those of the amount, rounded. -/
theorem payable_decimals : PaymentsService.payable .decimals dto.value = some n ↔
    n = ⌊dto.value * 10 ^ 7 + 1 / 2⌋.toNat ∧ 1 / 2 ≤ dto.value * 10 ^ 7 ∧
      dto.value * 10 ^ 7 < 2 ^ 63 - 1 / 2 := by
  have nonneg : 0 ≤ ⌊dto.value * 10 ^ 7 + 1 / 2⌋ :=
    Int.floor_nonneg.mpr (add_nonneg (mul_nonneg dto.value_nonneg (by norm_num)) (by norm_num))
  have least : 0 < ⌊dto.value * 10 ^ 7 + 1 / 2⌋.toNat ↔ 1 / 2 ≤ dto.value * 10 ^ 7 := by
    rw [Int.lt_toNat, Nat.cast_zero, Int.floor_pos]
    constructor <;> intro <;> linarith
  have most : ⌊dto.value * 10 ^ 7 + 1 / 2⌋.toNat ≤ 9223372036854775807 ↔
      dto.value * 10 ^ 7 < 2 ^ 63 - 1 / 2 := by
    rw [Int.toNat_le, ← Int.lt_add_one_iff, Int.floor_lt]
    norm_num
    constructor <;> intro <;> linarith
  simp only [PaymentsService.payable, Numbers.decimals, Numbers.rational, Option.filter_some, decide_eq_true_eq, least, most]
  split
  · rename_i fits
    constructor
    · intro same
      exact ⟨(Option.some.inj same).symm, fits⟩
    · rintro ⟨rfl, _⟩
      rfl
  · rename_i fails
    simp only [reduceCtorEq, false_iff]
    exact fun both => fails both.2

/-! ### One withdrawal -/

/-- What is left of a withdrawal to a valid address. -/
inductive WithdrawDto.Ends (dto : WithdrawDto) (config : Config) (horizon : Horizon) :
    List NativePayment → Except Failure WithdrawalTransaction → Prop where
  | refused (early : ¬ dto.Submits config horizon) (error : Failure) : Ends dto config horizon [] (.error error)
  | unconfirmed {payment : NativePayment} (submits : dto.Submits config horizon)
      (rounded : payment.amount = ⌊dto.value * 10 ^ 7 + 1 / 2⌋.toNat) (error : Failure)
      (failed : ∀ hash, horizon.submitted ≠ .ok hash) : Ends dto config horizon [payment] (.error error)
  | paid {payment : NativePayment} {record : WithdrawalTransaction} (submits : dto.Submits config horizon)
      (rounded : payment.amount = ⌊dto.value * 10 ^ 7 + 1 / 2⌋.toNat)
      (accepted : ∃ hash, horizon.submitted = .ok hash) (debit : record.sign = .debit)
      (same : record.amount = payment.amount) : Ends dto config horizon [payment] (.ok record)

theorem WithdrawDto.Ends.mapError {f : Failure → Failure} (ends : dto.Ends config horizon sent result) :
    dto.Ends config horizon sent (result.mapError f) := by
  cases ends with
  | refused early error => exact .refused early _
  | unconfirmed submits rounded error failed => exact .unconfirmed submits rounded _ failed
  | paid submits rounded accepted debit same => exact .paid submits rounded accepted debit same

theorem submission_ends {payment : NativePayment} {record : TxHash → WithdrawalTransaction}
    (submits : dto.Submits config horizon)
    (rounded : payment.amount = ⌊dto.value * 10 ^ 7 + 1 / 2⌋.toNat)
    (debit : ∀ hash, (record hash).sign = .debit) (same : ∀ hash, (record hash).amount = payment.amount)
    (ran : Process.Completes horizon.Serves []
      (PaymentsService.await (.submitTransaction payment) >>= fun hash => pure (record hash)) result sent) :
    dto.Ends config horizon sent result := by
  rcases completes_bind.mp ran with ⟨error, rfl, asked⟩ | ⟨hash, _, asked, ran⟩
  · obtain ⟨answer, rfl⟩ := completes_perform.mp asked
    refine .unconfirmed submits rounded error fun hash accepted => ?_
    rw [Horizon.answers, accepted] at answer
    contradiction
  · obtain ⟨answer, rfl⟩ := completes_perform.mp asked
    obtain ⟨rfl, rfl⟩ := completes_pure.mp ran
    exact .paid submits rounded ⟨hash, answer.symm⟩ (debit hash) (same hash)

theorem withdraw_ends (valid : isValidEd25519PublicKey dto.destinationAddress = true)
    (ran : Process.Completes horizon.Serves []
      (PaymentsService.withdrawIn .decimals isValidEd25519PublicKey config dto) result sent) :
    dto.Ends config horizon sent result := by
  rcases completes_throwIf.mp ran with ⟨invalid, _⟩ | ⟨_, ran⟩
  · simp [valid] at invalid
  rcases completes_throwIf.mp ran with ⟨zero, rfl, rfl⟩ | ⟨_, ran⟩
  · refine .refused (fun submits => ?_) _
    have nothing : dto.value ≤ 0 := of_decide_eq_true zero
    have least := submits.least
    linarith
  rcases completes_throwIf.mp ran with ⟨other, rfl, rfl⟩ | ⟨native, ran⟩
  · exact .refused (fun submits => other submits.native) _
  rcases completes_orThrow.mp ran with ⟨absent, rfl, rfl⟩ | ⟨adminPublicKey, configured, ran⟩
  · refine .refused (fun submits => ?_) _
    have configured := submits.configured
    simp [absent] at configured
  obtain ⟨first, rfl, attempt⟩ := Process.completes_rethrown.mp ran
  refine .mapError ?_
  rcases completes_bind.mp attempt with ⟨error, rfl, asked⟩ | ⟨sequence, _, asked, ran⟩
  · obtain ⟨answer, rfl⟩ := completes_perform.mp asked
    refine .refused (fun submits => ?_) error
    obtain ⟨sequence, loaded⟩ := submits.loaded
    rw [Horizon.answers, loaded] at answer
    contradiction
  obtain ⟨loaded, rfl⟩ := completes_perform.mp asked
  rcases completes_bind.mp ran with ⟨error, rfl, asked⟩ | ⟨fee, _, asked, ran⟩
  · obtain ⟨answer, rfl⟩ := completes_perform.mp asked
    refine .refused (fun submits => ?_) error
    obtain ⟨fee, priced⟩ := submits.priced
    rw [Horizon.answers, priced] at answer
    contradiction
  obtain ⟨priced, rfl⟩ := completes_perform.mp asked
  rcases completes_orThrow.mp ran with ⟨unpayable, rfl, rfl⟩ | ⟨amount, payable, ran⟩
  · refine .refused (fun submits => ?_) _
    have payable := payable_decimals.mpr ⟨rfl, submits.least, submits.most⟩
    exact Option.some_ne_none _ (payable.symm.trans unpayable)
  · obtain ⟨rounded, least, most⟩ := payable_decimals.mp payable
    have submits : dto.Submits config horizon :=
      ⟨not_not.mp native, by simp [configured], ⟨sequence, loaded.symm⟩, ⟨fee, priced.symm⟩, least, most⟩
    exact submission_ends submits rounded (fun _ => rfl) (fun _ => rfl) ran

/-- What rounding keeps. -/
theorem WithdrawDto.rounded_exact (dto : WithdrawDto) :
    (⌊dto.value * 10 ^ 7 + 1 / 2⌋.toNat : ℚ) / 10 ^ 7 = dto.value ↔ dto.Whole := by
  rw [div_eq_iff (by norm_num)]
  constructor
  · intro same
    exact ⟨_, same.symm⟩
  · rintro ⟨stroops, whole⟩
    rw [whole]
    have down : ⌊(stroops : ℚ) + 1 / 2⌋ = stroops := by
      rw [Int.floor_eq_iff]
      constructor <;> push_cast <;> linarith
    rw [down, Int.toNat_natCast]

theorem WithdrawDto.Ends.paidExactly_iff (ends : dto.Ends config horizon sent result) :
    dto.PaidExactly sent result ↔
      (dto.Submits config horizon → dto.Whole ∧ ∃ hash, horizon.submitted = .ok hash) := by
  cases ends with
  | refused early error =>
    exact iff_of_true (.inl ⟨rfl, error, rfl⟩) fun submits => absurd submits early
  | unconfirmed submits rounded error failed =>
    refine iff_of_false ?_ fun taken => ?_
    · rintro (⟨contra, _⟩ | ⟨_, _, _, contra, _⟩) <;> contradiction
    · obtain ⟨hash, accepted⟩ := (taken submits).2
      exact failed hash accepted
  | @paid payment record submits rounded accepted debit same =>
    constructor
    · rintro (⟨contra, _⟩ | ⟨payment', record', one, _, asked, _⟩) _
      · contradiction
      · obtain rfl := List.singleton_injective one
        rw [rounded] at asked
        exact ⟨dto.rounded_exact.mp asked, accepted⟩
    · intro taken
      refine .inr ⟨payment, record, rfl, rfl, ?_, debit, same⟩
      rw [rounded]
      exact dto.rounded_exact.mpr (taken submits).1

/-- A withdrawal that gets to its submission pays what was asked exactly where that is a whole
number of stroops, and Horizon takes the payment. -/
theorem withdrawal_exact_iff (valid : isValidEd25519PublicKey dto.destinationAddress = true) :
    (∃ result sent, Process.Completes horizon.Serves []
      (PaymentsService.withdrawIn .decimals isValidEd25519PublicKey config dto) result sent) ∧
    ∀ result sent, Process.Completes horizon.Serves []
      (PaymentsService.withdrawIn .decimals isValidEd25519PublicKey config dto) result sent →
      (dto.PaidExactly sent result ↔
        (dto.Submits config horizon → dto.Whole ∧ ∃ hash, horizon.submitted = .ok hash)) := by
  constructor
  · exact Process.exists_completes horizon.exists_served _ _
  · intro result sent ran
    exact (withdraw_ends valid ran).paidExactly_iff

end Exact

namespace Sample

def horizon : Horizon := ⟨.ok 7, .ok 100, .ok (supply.hash [])⟩

theorem eightPlaces_value : eightPlaces.value = 100000001 / 100000000 := by
  norm_num [WithdrawDto.value, eightPlaces, Numeral.numerator, Numeral.denominator]

theorem withdrawDto_value : withdrawDto.value = 100 := by
  norm_num [WithdrawDto.value, withdrawDto, Numeral.numerator, Numeral.denominator]

end Sample

/-- Of 1.00000001 XLM the last digit is not paid. -/
theorem withdrawal_exact_fails : ¬ ∀ (isValidEd25519PublicKey : String → Bool) (config : Config)
    (dto : WithdrawDto) (horizon : Horizon) (result : Except Failure WithdrawalTransaction)
    (sent : List NativePayment), isValidEd25519PublicKey dto.destinationAddress = true →
      Process.Completes horizon.Serves []
        (PaymentsService.withdrawIn .decimals isValidEd25519PublicKey config dto) result sent →
      dto.PaidExactly sent result := by
  intro always
  obtain ⟨result, sent, ran⟩ := Process.exists_completes Sample.horizon.exists_served
    (PaymentsService.withdrawIn .decimals Sample.isDestination Sample.config Sample.eightPlaces) []
  have valid : Sample.isDestination Sample.eightPlaces.destinationAddress = true := by decide
  have exactly := always _ _ _ Sample.horizon result sent valid ran
  have submits : Sample.eightPlaces.Submits Sample.config Sample.horizon :=
    ⟨rfl, rfl, ⟨7, rfl⟩, ⟨100, rfl⟩, by norm_num [Sample.eightPlaces_value],
      by norm_num [Sample.eightPlaces_value]⟩
  obtain ⟨⟨stroops, whole⟩, _⟩ := (withdraw_ends valid ran).paidExactly_iff.mp exactly submits
  have tenth : (100000001 : ℚ) = 10 * stroops := by
    rw [← whole, Sample.eightPlaces_value]
    norm_num
  have integral : 100000001 = 10 * stroops := by exact_mod_cast tenth
  omega

/-- 100 XLM are paid as they are asked for. -/
theorem withdrawal_exact_iff_sample : ∃ result sent, Process.Completes Sample.horizon.Serves []
      (PaymentsService.withdrawIn .decimals Sample.isDestination Sample.config Sample.withdrawDto) result sent ∧
    Sample.withdrawDto.PaidExactly sent result := by
  obtain ⟨⟨result, sent, ran⟩, exactly⟩ := @withdrawal_exact_iff Sample.config
    Sample.isDestination Sample.withdrawDto Sample.horizon (by decide)
  refine ⟨result, sent, ran, (exactly result sent ran).mpr fun _ => ⟨⟨1000000000, ?_⟩, _, rfl⟩⟩
  norm_num [Sample.withdrawDto_value]

end Stellance.Backend
