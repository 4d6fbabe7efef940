import Stellance.Backend.ContractsService
import Stellance.Escrow.Conservation

/-! One contract as both sides know it: its rows in the database, its entry on chain
and what was paid out under it. The acts below are all that a sequential backend, the
client's funding and the escrow contract can do to it together. -/
namespace Stellance.Backend
open ContractsService (decisionMap finalStatus)

abbrev Entry := Escrow.EscrowEntry Address

structure Dossier where
  row : Option Contract
  milestones : List Milestone
  payments : List Payment
  entry : Option Entry
  paidOut : Int

/-! ### Milestones -/

namespace Milestone

/-- What a milestone has been paid. -/
def paidAmount (milestone : Milestone) : Nat :=
  if milestone.status = .paid then milestone.amount else 0

/-- The rows, with one of them in another status. -/
def mark (milestones : List Milestone) (id : Uuid) (status : MilestoneStatus) : List Milestone :=
  milestones.map fun m => if m.id = id then m.updated status else m

variable {milestones : List Milestone} {id : Uuid} {status : MilestoneStatus} {m m' : Milestone}

theorem mem_mark : m ∈ mark milestones id status ↔
    ∃ m' ∈ milestones, m = if m'.id = id then m'.updated status else m' := by
  simp only [mark, List.mem_map, eq_comm]

theorem mark_mark (first second : MilestoneStatus) :
    mark (mark milestones id first) id second = mark milestones id second := by
  rw [mark, mark, List.map_map]
  apply List.map_congr_left
  intro m _
  by_cases here : m.id = id <;> simp [here, updated]

theorem map_mark {β : Type} (f : Milestone → β) (blind : ∀ m, f (m.updated status) = f m) :
    (mark milestones id status).map f = milestones.map f := by
  rw [mark, List.map_map]
  apply List.map_congr_left
  intro m _
  rw [Function.comp_apply]
  split
  · exact blind m
  · rfl

theorem paidAmount_le (m : Milestone) : m.paidAmount ≤ m.amount := by
  rw [paidAmount]
  split <;> omega

/-- Submitting a milestone for review pays nothing. -/
theorem paid_mark_inReview (member : m ∈ milestones) (ids : (milestones.map Milestone.id).Nodup)
    (pending : m.status = .pending) :
    ((mark milestones m.id .inReview).map paidAmount).sum = (milestones.map paidAmount).sum := by
  have gains : (m.updated .inReview).paidAmount = m.paidAmount + 0 := by
    simp [paidAmount, updated, pending]
  exact Table.sum_rewrite ids member rfl gains

theorem paid_mark_paid (member : m ∈ milestones) (ids : (milestones.map Milestone.id).Nodup)
    (unpaid : m.status ≠ .paid) :
    ((mark milestones m.id .paid).map paidAmount).sum =
      (milestones.map paidAmount).sum + m.amount := by
  have gains : (m.updated .paid).paidAmount = m.paidAmount + m.amount := by
    simp [paidAmount, updated, unpaid]
  exact Table.sum_rewrite ids member rfl gains

/-- All is paid exactly when every milestone is. -/
theorem all_paid (positive : ∀ m ∈ milestones, 0 < m.amount) :
    (milestones.map paidAmount).sum = (milestones.map Milestone.amount).sum ↔
      ∀ m ∈ milestones, m.status = .paid := by
  induction milestones with
  | nil => simp
  | cons head tail ih =>
    have rest := ih fun m member => positive m (List.mem_cons_of_mem _ member)
    have bound : (tail.map paidAmount).sum ≤ (tail.map Milestone.amount).sum :=
      List.sum_le_sum fun m _ => m.paidAmount_le
    have first := positive head List.mem_cons_self
    rw [List.map_cons, List.map_cons, List.sum_cons, List.sum_cons, List.forall_mem_cons, ← rest,
      paidAmount]
    split
    · rename_i paid
      constructor
      · intro same
        exact ⟨paid, by omega⟩
      · rintro ⟨_, same⟩
        omega
    · rename_i unpaid
      constructor
      · intro same
        omega
      · rintro ⟨paid, _⟩
        exact absurd paid unpaid

end Milestone

namespace Dossier

def amounts (d : Dossier) : List Nat := d.milestones.map Milestone.amount

def totalAmount (d : Dossier) : Nat := d.amounts.sum

def paidAmount (d : Dossier) : Nat := (d.milestones.map Milestone.paidAmount).sum

/-- The sum of the payment rows. -/
def recorded (d : Dossier) : Nat := (d.payments.map Payment.amount).sum

/-- A call moved the entry, and the tokens it pays out are counted. -/
inductive Moved (d : Dossier) (call : ChainCall) : Option Entry → Int → Prop where
  | intro {entry next : Entry} {payouts : List (Escrow.Payout Address)}
      {event : Escrow.Event Address Symbol} (found : d.entry = some entry)
      (moves : Escrow.Moves call entry payouts next event) :
      Moved d call (some next) (d.paidOut + Escrow.payoutSum payouts)

inductive Act where
  | created
  | funded
  | confirmed
  | submitted
  | approved
  | disputed
  | resolved
  | cancelled

/-- A row is completed with its last payment. -/
def afterPayment (row : Contract) (milestones : List Milestone) : Contract :=
  if ∀ m ∈ milestones, m.status = .paid then row.updated .completed none else row

/-- What is left to pay, as a column keeps it. -/
def remaining (numbers : Numbers) (d : Dossier) : Option Nat :=
  numbers.column (numbers.remaining d.amounts (d.payments.map Payment.amount))

inductive Step (numbers : Numbers) (d : Dossier) : Act → Dossier → Prop where
  | created {row : Contract} {milestones : List Milestone} (absent : d.row = none)
      (pending : row.status = .pending) (unconfirmed : row.escrowTxHash = none)
      (planned : milestones ≠ []) (ids : (milestones.map Milestone.id).Nodup)
      (fresh : ∀ m ∈ milestones, 0 < m.amount ∧ m.status = .pending) :
      Step numbers d .created { d with row := some row, milestones }
  | funded {row : Contract} {client freelancer admin token : Address} {stroops : Nat}
      {amount : Escrow.I128} (found : d.row = some row) (absent : d.entry = none)
      (positive : 0 < amount.val)
      (deposit : numbers.deposit d.amounts = some stroops)
      (same : amount.val = stroops) :
      Step numbers d .funded { d with entry := some (.opened client freelancer admin amount token) }
  | confirmed {row : Contract} {hash : TxHash} (found : d.row = some row)
      (unconfirmed : row.escrowTxHash = none) (status : row.status = .pending ∨ row.status = .active) :
      Step numbers d .confirmed { d with row := some (row.updated .active (some hash)) }
  | submitted {row : Contract} {milestone : Milestone} (found : d.row = some row)
      (active : row.status = .active) (listed : milestone ∈ d.milestones)
      (pending : milestone.status = .pending) :
      Step numbers d .submitted { d with milestones := Milestone.mark d.milestones milestone.id .inReview }
  | approved {row : Contract} {milestone : Milestone} {hash : TxHash} {key : Symbol}
      {caller : Address} {stroops : Nat} {amount : Escrow.I128} {entry : Option Entry} {paidOut : Int}
      (found : d.row = some row) (active : row.status = .active) (listed : milestone ∈ d.milestones)
      (inReview : milestone.status = .inReview)
      (converted : numbers.release milestone.amount = some stroops) (same : amount.val = stroops)
      (moved : d.Moved (.releaseMilestone key caller amount) entry paidOut) :
      Step numbers d .approved
        { row := some (afterPayment row (Milestone.mark d.milestones milestone.id .paid))
          milestones := Milestone.mark d.milestones milestone.id .paid
          payments := d.payments ++ [⟨row.id, some milestone.id, milestone.amount, hash⟩]
          entry, paidOut }
  | disputed {row : Contract} {key : Symbol} {caller : Address} {entry : Option Entry} {paidOut : Int}
      (found : d.row = some row) (active : row.status = .active)
      (moved : d.Moved (.dispute key caller) entry paidOut) :
      Step numbers d .disputed { d with row := some (row.updated .disputed none), entry, paidOut }
  | resolved {row : Contract} {hash : TxHash} {key : Symbol} {caller : Address}
      {text : String} {decision : Escrow.DisputeDecision} {bps : UInt32} {left : Nat}
      {entry : Option Entry} {paidOut : Int} (found : d.row = some row) (disputed : row.status = .disputed)
      (decided : decisionMap text = some (some decision)) (remains : d.remaining numbers = some left)
      (moved : d.Moved (.resolveDispute key caller decision bps) entry paidOut) :
      Step numbers d .resolved
        { d with
          row := some (row.updated (finalStatus text) none)
          payments := d.payments ++ [⟨row.id, none, left, hash⟩]
          entry, paidOut }
  | cancelled {row : Contract} (found : d.row = some row)
      (live : row.status ≠ .completed ∧ row.status ≠ .cancelled)
      (unconfirmed : row.escrowTxHash = none) :
      Step numbers d .cancelled { d with row := some (row.updated .cancelled none) }
  | refunded {row : Contract} {hash : TxHash} {key : Symbol} {caller : Address} {left : Nat}
      {entry : Option Entry} {paidOut : Int} (found : d.row = some row)
      (live : row.status ≠ .completed ∧ row.status ≠ .cancelled) (remains : d.remaining numbers = some left)
      (moved : d.Moved (.refund key caller) entry paidOut) :
      Step numbers d .cancelled
        { d with
          row := some (row.updated .cancelled none)
          payments := d.payments ++ [⟨row.id, none, left, hash⟩]
          entry, paidOut }
  -- settled on chain, with more left to pay than the payment row can hold
  | unresolved {row : Contract} {key : Symbol} {caller : Address} {decision : Escrow.DisputeDecision}
      {bps : UInt32} {entry : Option Entry} {paidOut : Int} (found : d.row = some row)
      (disputed : row.status = .disputed) (tooLarge : d.remaining numbers = none)
      (moved : d.Moved (.resolveDispute key caller decision bps) entry paidOut) :
      Step numbers d .resolved { d with entry, paidOut }
  | unrefunded {row : Contract} {key : Symbol} {caller : Address} {entry : Option Entry} {paidOut : Int}
      (found : d.row = some row) (live : row.status ≠ .completed ∧ row.status ≠ .cancelled)
      (tooLarge : d.remaining numbers = none) (moved : d.Moved (.refund key caller) entry paidOut) :
      Step numbers d .cancelled { d with entry, paidOut }

/-! ### The books -/

/-- The milestone has its payment where it is paid, and none where it is not. -/
def Receipted (payments : List Payment) (milestone : Milestone) : Prop :=
  if milestone.status = .paid then
    ∃ payment ∈ payments, payment.milestoneId = some milestone.id ∧ payment.amount = milestone.amount
  else ∀ payment ∈ payments, payment.milestoneId ≠ some milestone.id

/-- What an entry tells of the contract it belongs to. -/
structure Agrees (d : Dossier) (entry : Entry) : Prop where
  formed : entry.WellFormed
  total : entry.totalAmount.val = d.totalAmount
  paid : d.paidOut + entry.outstanding = entry.totalAmount.val
  released : entry.status.isOpen = true → entry.releasedAmount.val = d.paidAmount

/-- Both sides count the same: every payment is recorded, and the entry agrees with the rows. -/
structure Accounts (d : Dossier) : Prop where
  recorded : (d.recorded : Int) = d.paidOut
  funded : ∀ entry, d.entry = some entry → d.Agrees entry

/-- The conversions of the contract's amounts are exact. -/
def Exact (numbers : Numbers) (d : Dossier) : Prop := numbers.ExactFor d.amounts

/-- What every act keeps; the accounts where the conversions are exact. -/
structure Books (numbers : Numbers) (d : Dossier) : Prop where
  unknown : d.row = none → d.milestones = [] ∧ d.payments = [] ∧ d.entry = none
  planned : d.row ≠ none → d.milestones ≠ []
  ids : (d.milestones.map Milestone.id).Nodup
  positive : ∀ m ∈ d.milestones, 0 < m.amount
  receipted : ∀ m ∈ d.milestones, Receipted d.payments m
  unfunded : d.entry = none → d.paidOut = 0 ∧ d.paidAmount = 0
  accounts : d.Exact numbers → d.Accounts
  unconfirmed : ∀ row, d.row = some row → row.escrowTxHash = none →
    row.status = .pending ∨ row.status = .cancelled
  completed : ∀ row, d.row = some row → row.status = .completed → d.entry ≠ none

/-- The contract before anyone has heard of it. -/
def unknown : Dossier := ⟨none, [], [], none, 0⟩

theorem unknown_books (numbers : Numbers) : unknown.Books numbers where
  unknown _ := ⟨rfl, rfl, rfl⟩
  planned known := absurd rfl known
  ids := List.nodup_nil
  positive _ member := absurd member List.not_mem_nil
  receipted _ member := absurd member List.not_mem_nil
  unfunded _ := ⟨rfl, rfl⟩
  accounts _ := ⟨rfl, fun _ found => absurd found.symm (Option.some_ne_none _)⟩
  unconfirmed _ found := absurd found.symm (Option.some_ne_none _)
  completed _ found := absurd found.symm (Option.some_ne_none _)

variable {numbers : Numbers} {d d' : Dossier} {act : Act} {row : Contract} {entry next : Entry}

theorem Books.confirmed (books : d.Books numbers) (found : d.row = some row)
    (later : row.status ≠ .pending ∧ row.status ≠ .cancelled) : row.escrowTxHash ≠ none := by
  intro unconfirmed
  rcases books.unconfirmed row found unconfirmed with pending | cancelled
  · exact later.1 pending
  · exact later.2 cancelled

theorem updated_unconfirmed {status : ContractStatus}
    (unconfirmed : (row.updated status none).escrowTxHash = none) : row.escrowTxHash = none := by
  simpa [Contract.updated] using unconfirmed

/-- A move keeps the account of an entry in balance. -/
theorem Agrees.moves {call : ChainCall} {payouts : List (Escrow.Payout Address)}
    {event : Escrow.Event Address Symbol} (agrees : d.Agrees entry)
    (moves : Escrow.Moves call entry payouts next event) :
    next.WellFormed ∧ next.totalAmount.val = d.totalAmount ∧
      d.paidOut + Escrow.payoutSum payouts + next.outstanding = next.totalAmount.val := by
  have pays := moves.pays agrees.formed
  have terms := moves.sameTerms.totalAmount
  have paid := agrees.paid
  refine ⟨moves.wellFormed agrees.formed, terms ▸ agrees.total, ?_⟩
  rw [terms]
  omega

/-- What is left to pay is what the entry still holds. -/
theorem Accounts.remaining (accounts : d.Accounts) (exact' : d.Exact numbers) (found : d.entry = some entry) :
    ∃ left : Nat, d.remaining numbers = some left ∧ (left : Int) = entry.outstanding := by
  have agrees := accounts.funded entry found
  have total := agrees.total
  have paid := agrees.paid
  have recorded := accounts.recorded
  have nonneg := agrees.formed.outstanding_nonneg
  refine ⟨_, exact'.remaining _ (show d.recorded ≤ d.totalAmount by omega), ?_⟩
  change ((d.totalAmount - d.recorded : Nat) : Int) = _
  omega

/-- What is left to pay can be recorded when the entry moves. -/
theorem Books.recordable {call : ChainCall} {entry : Option Entry} {paidOut : Int} (books : d.Books numbers)
    (exact' : d.Exact numbers) (moved : d.Moved call entry paidOut) : d.remaining numbers ≠ none := by
  cases moved with
  | intro stored moves =>
    obtain ⟨left, remains, _⟩ := (books.accounts exact').remaining exact' stored
    rw [remains]
    exact Option.some_ne_none _

/-- The entry of a contract that nothing is left to pay on is closed. -/
theorem Books.closed (books : d.Books numbers) (exact' : d.Exact numbers) (found : d.entry = some entry)
    (allPaid : ∀ m ∈ d.milestones, m.status = .paid) : entry.status.isOpen = false := by
  have agrees := (books.accounts exact').funded entry found
  have same : d.paidAmount = d.totalAmount := (Milestone.all_paid books.positive).mpr allPaid
  cases opened : entry.status.isOpen with
  | false => rfl
  | true =>
    have total := agrees.total
    have released := agrees.released opened
    have unspent := agrees.formed.unspent opened
    omega

theorem mark_ids {milestones : List Milestone} (id : Uuid) (status : MilestoneStatus) :
    (Milestone.mark milestones id status).map Milestone.id = milestones.map Milestone.id :=
  Milestone.map_mark Milestone.id fun _ => rfl

theorem mark_amounts {milestones : List Milestone} (id : Uuid) (status : MilestoneStatus) :
    (Milestone.mark milestones id status).map Milestone.amount = milestones.map Milestone.amount :=
  Milestone.map_mark Milestone.amount fun _ => rfl

theorem amounts_mark {id : Uuid} {status : MilestoneStatus} :
    { d with milestones := Milestone.mark d.milestones id status }.amounts = d.amounts :=
  mark_amounts id status

theorem mark_positive {milestones : List Milestone} {id : Uuid} {status : MilestoneStatus}
    (positive : ∀ m ∈ milestones, 0 < m.amount) :
    ∀ m ∈ Milestone.mark milestones id status, 0 < m.amount := by
  intro m member
  obtain ⟨m', member', rfl⟩ := Milestone.mem_mark.mp member
  have := positive m' member'
  split <;> exact this

theorem mark_planned {milestones : List Milestone} {id : Uuid} {status : MilestoneStatus}
    (planned : milestones ≠ []) : Milestone.mark milestones id status ≠ [] := by
  simpa [Milestone.mark] using planned

theorem receipted_more {payments : List Payment} {payment : Payment} {m : Milestone}
    (receipted : Receipted payments m) (other : payment.milestoneId ≠ some m.id) :
    Receipted (payments ++ [payment]) m := by
  unfold Receipted at receipted ⊢
  split
  · rename_i paid
    rw [if_pos paid] at receipted
    obtain ⟨own, member, same⟩ := receipted
    exact ⟨own, List.mem_append_left _ member, same⟩
  · rename_i unpaid
    rw [if_neg unpaid] at receipted
    intro own member
    rcases List.mem_append.mp member with earlier | last
    · exact receipted own earlier
    · obtain rfl := List.mem_singleton.mp last
      exact other

theorem recorded_more {payments : List Payment} {payment : Payment} :
    ((payments ++ [payment]).map Payment.amount).sum =
      (payments.map Payment.amount).sum + payment.amount := by
  simp

/-- Marking one milestone asks for the receipts of that one, and of the others as
before. -/
theorem receipted_mark {milestones : List Milestone} {payments : List Payment}
    {milestone : Milestone} {status : MilestoneStatus}
    (ids : (milestones.map Milestone.id).Nodup) (listed : milestone ∈ milestones)
    (own : Receipted payments (milestone.updated status))
    (others : ∀ m ∈ milestones, m.id ≠ milestone.id → Receipted payments m) :
    ∀ m ∈ Milestone.mark milestones milestone.id status, Receipted payments m := by
  intro m member
  obtain ⟨m', member', rfl⟩ := Milestone.mem_mark.mp member
  split
  · rename_i here
    obtain rfl := List.inj_on_of_nodup_map ids member' listed here
    exact own
  · rename_i elsewhere
    exact others m' member' elsewhere

theorem receipted_unpaid {payments : List Payment} {m : Milestone} (unpaid : m.status ≠ .paid) :
    Receipted payments m ↔ ∀ payment ∈ payments, payment.milestoneId ≠ some m.id := by
  rw [Receipted, if_neg unpaid]

theorem known (found : d.row = some row) : d.row ≠ none :=
  Option.ne_none_iff_exists'.mpr ⟨row, found⟩

theorem receipted_paid {payments : List Payment} {m : Milestone} (paid : m.status = .paid) :
    Receipted payments m ↔
      ∃ payment ∈ payments, payment.milestoneId = some m.id ∧ payment.amount = m.amount := by
  rw [Receipted, if_pos paid]

theorem exact_mark {d : Dossier} {milestones : List Milestone} {id : Uuid} {status : MilestoneStatus}
    (marked : d.milestones = Milestone.mark milestones id status) (exact' : d.Exact numbers) :
    numbers.ExactFor (milestones.map Milestone.amount) := by
  rw [Exact, amounts, marked, mark_amounts] at exact'
  exact exact'

theorem created_books {milestones : List Milestone} (books : d.Books numbers) (absent : d.row = none)
    (pending : row.status = .pending) (planned : milestones ≠ [])
    (ids : (milestones.map Milestone.id).Nodup)
    (fresh : ∀ m ∈ milestones, 0 < m.amount ∧ m.status = .pending) :
    Books numbers { d with row := some row, milestones } := by
  obtain ⟨_, noPayments, noEntry⟩ := books.unknown absent
  have unpaid : (milestones.map Milestone.paidAmount).sum = 0 := by
    apply List.sum_eq_zero
    intro amount member
    obtain ⟨m, listed, rfl⟩ := List.mem_map.mp member
    simp [Milestone.paidAmount, (fresh m listed).2]
  refine
    { unknown := fun unknown => absurd unknown (Option.some_ne_none _)
      planned := fun _ => planned
      ids
      positive := fun m member => (fresh m member).1
      receipted := ?_
      unfunded := fun unfunded => ⟨(books.unfunded unfunded).1, unpaid⟩
      accounts := fun _ => ⟨?_, ?_⟩
      unconfirmed := ?_
      completed := ?_ }
  · intro m member
    rw [receipted_unpaid (by rw [(fresh m member).2]; decide), noPayments]
    exact fun _ contra => absurd contra List.not_mem_nil
  · change ((d.recorded : Nat) : Int) = d.paidOut
    rw [recorded, noPayments, (books.unfunded noEntry).1]
    rfl
  · intro entry found
    rw [noEntry] at found
    contradiction
  · rintro _ ⟨⟩ _
    exact .inl pending
  · rintro _ ⟨⟩ completed
    rw [pending] at completed
    contradiction

theorem funded_books {client freelancer admin token : Address} {stroops : Nat} {amount : Escrow.I128}
    (books : d.Books numbers) (found : d.row = some row) (absent : d.entry = none)
    (positive : 0 < amount.val) (deposit : numbers.deposit d.amounts = some stroops)
    (same : amount.val = stroops) :
    Books numbers { d with entry := some (.opened client freelancer admin amount token) } := by
  obtain ⟨nothing, unpaid⟩ := books.unfunded absent
  refine
    { books with
      unknown := fun unknown => absurd unknown (known found)
      unfunded := fun unfunded => absurd unfunded (Option.some_ne_none _)
      accounts := fun exact' => ⟨(books.accounts exact').recorded, ?_⟩
      completed := fun _ _ _ => Option.some_ne_none _ }
  rintro _ ⟨⟩
  have total : stroops = d.totalAmount := Option.some.inj (deposit.symm.trans exact'.deposit)
  refine ⟨Escrow.opened_wellFormed positive, same.trans (congrArg Nat.cast total), ?_, fun _ => ?_⟩
  · show d.paidOut + _ = amount.val
    rw [nothing, Escrow.outstanding_open rfl]
    show 0 + (amount.val - 0) = amount.val
    omega
  · show (0 : Int) = d.paidAmount
    rw [unpaid]
    rfl

/-- The row alone is written: who is not confirmed is pending or cancelled, and nothing completes. -/
theorem updated_books {status : ContractStatus} {hash : Option TxHash} (books : d.Books numbers) (found : d.row = some row)
    (unconfirmed : (row.updated status hash).escrowTxHash = none → status = .pending ∨ status = .cancelled)
    (incomplete : status ≠ .completed) : Books numbers { d with row := some (row.updated status hash) } := by
  refine
    { books with
      unknown := fun unknown => absurd unknown (Option.some_ne_none _)
      planned := fun _ => books.planned (known found)
      accounts := fun exact' => ⟨(books.accounts exact').recorded,
        fun entry stored => { (books.accounts exact').funded entry stored with }⟩
      unconfirmed := ?_
      completed := ?_ }
  · rintro _ ⟨⟩
    exact unconfirmed
  · rintro _ ⟨⟩ completed
    exact absurd completed incomplete

theorem confirmed_books {hash : TxHash} (books : d.Books numbers) (found : d.row = some row) :
    Books numbers { d with row := some (row.updated .active (some hash)) } := by
  refine updated_books books found (fun unconfirmed => ?_) (by decide)
  contradiction

theorem cancelled_books (books : d.Books numbers) (found : d.row = some row) :
    Books numbers { d with row := some (row.updated .cancelled none) } :=
  updated_books books found (fun _ => .inr rfl) (by decide)

theorem submitted_books {milestone : Milestone} (books : d.Books numbers) (found : d.row = some row)
    (listed : milestone ∈ d.milestones) (pending : milestone.status = .pending) :
    Books numbers { d with milestones := Milestone.mark d.milestones milestone.id .inReview } := by
  have unpaid : milestone.status ≠ .paid := by
    rw [pending]
    decide
  have paid := Milestone.paid_mark_inReview listed books.ids pending
  refine
    { books with
      unknown := fun unknown => absurd unknown (known found)
      planned := fun _ => mark_planned (books.planned (known found))
      ids := (mark_ids ..).symm ▸ books.ids
      positive := mark_positive books.positive
      receipted := ?_
      unfunded := fun unfunded => ⟨(books.unfunded unfunded).1, paid.trans (books.unfunded unfunded).2⟩
      accounts := fun exact' => ⟨(books.accounts (exact_mark rfl exact')).recorded, ?_⟩ }
  · refine receipted_mark books.ids listed ?_ fun m member _ => books.receipted m member
    exact (receipted_unpaid (by simp [Milestone.updated])).mpr
      ((receipted_unpaid unpaid).mp (books.receipted milestone listed))
  · intro entry stored
    have agrees := (books.accounts (exact_mark rfl exact')).funded entry stored
    refine ⟨agrees.formed, ?_, agrees.paid, fun isOpen => ?_⟩
    · rw [agrees.total, totalAmount, totalAmount, amounts_mark]
    · rw [agrees.released isOpen]
      exact congrArg Nat.cast paid.symm

/-! ### Acts on chain -/

section Moves
variable {key : Symbol} {caller : Address} {payouts : List (Escrow.Payout Address)}
  {event : Escrow.Event Address Symbol}

theorem releaseMilestone_moves {amount : Escrow.I128}
    (moves : Escrow.Moves (.releaseMilestone key caller amount) entry payouts next event) :
    entry.status = .funded ∧ Escrow.payoutSum payouts = amount.val ∧
      next.releasedAmount.val = entry.releasedAmount.val + amount.val ∧
      next.status = if entry.totalAmount.val ≤ next.releasedAmount.val then .released else .funded := by
  cases moves with
  | releaseMilestone funded allowed remaining left positive covered released sum =>
    refine ⟨funded, by simp [Escrow.payoutSum], sum, ?_⟩
    rw [← funded]

theorem dispute_moves (moves : Escrow.Moves (.dispute key caller) entry payouts next event) :
    Escrow.payoutSum payouts = 0 ∧ next.releasedAmount = entry.releasedAmount ∧
      entry.status = .funded ∧ next.status = .disputed := by
  cases moves with
  | dispute funded => exact ⟨rfl, rfl, funded, rfl⟩

theorem refund_moves (moves : Escrow.Moves (.refund key caller) entry payouts next event) :
    next.status = .refunded := by
  cases moves
  rfl

/-- The status a decision closes an entry with. -/
def closedAs : Escrow.DisputeDecision → Escrow.EscrowStatus
  | .releaseToFreelancer => .released
  | .refundToClient => .refunded
  | .split => .resolved

theorem resolveDispute_moves {decision : Escrow.DisputeDecision} {bps : UInt32}
    (moves : Escrow.Moves (.resolveDispute key caller decision bps) entry payouts next event) :
    next.status = closedAs decision := by
  cases moves with
  | resolve disputed allowed remaining left arm => cases arm <;> rfl

end Moves

theorem afterPayment_escrowTxHash (row : Contract) (milestones : List Milestone) :
    (afterPayment row milestones).escrowTxHash = row.escrowTxHash := by
  unfold afterPayment
  split <;> rfl

theorem approved_books {milestone : Milestone} {hash : TxHash} {key : Symbol} {caller : Address}
    {stroops : Nat} {amount : Escrow.I128} {entry : Option Entry} {paidOut : Int} (books : d.Books numbers)
    (found : d.row = some row) (active : row.status = .active) (listed : milestone ∈ d.milestones)
    (inReview : milestone.status = .inReview) (converted : numbers.release milestone.amount = some stroops)
    (same : amount.val = stroops) (moved : d.Moved (.releaseMilestone key caller amount) entry paidOut) :
    Books numbers
      { row := some (afterPayment row (Milestone.mark d.milestones milestone.id .paid))
        milestones := Milestone.mark d.milestones milestone.id .paid
        payments := d.payments ++ [⟨row.id, some milestone.id, milestone.amount, hash⟩]
        entry, paidOut } := by
  have unpaid : milestone.status ≠ .paid := by
    rw [inReview]
    decide
  have paid := Milestone.paid_mark_paid listed books.ids unpaid
  cases moved with
  | @intro entry next payouts event stored moves =>
    obtain ⟨funded, pays, releases, _⟩ := releaseMilestone_moves moves
    refine
      { unknown := fun unknown => absurd unknown (Option.some_ne_none _)
        planned := fun _ => mark_planned (books.planned (known found))
        ids := (mark_ids ..).symm ▸ books.ids
        positive := mark_positive books.positive
        receipted := ?_
        unfunded := fun unfunded => absurd unfunded (Option.some_ne_none _)
        accounts := fun exact' => ?_
        unconfirmed := ?_
        completed := fun _ _ _ => Option.some_ne_none _ }
    · refine receipted_mark books.ids listed ?_ fun m member other => ?_
      · exact (receipted_paid rfl).mpr ⟨_, List.mem_append_right _ List.mem_cons_self, rfl, rfl⟩
      · exact receipted_more (books.receipted m member) fun same => other (Option.some.inj same).symm
    · have exact' : d.Exact numbers := exact_mark rfl exact'
      have accounts := books.accounts exact'
      have agrees := accounts.funded entry stored
      obtain ⟨formed, total, balance⟩ := agrees.moves moves
      have whole := exact'.release _ (List.mem_map_of_mem listed)
      obtain rfl : stroops = milestone.amount := Option.some.inj (converted.symm.trans whole)
      constructor
      · have recorded := accounts.recorded
        rw [Dossier.recorded, recorded_more, pays, same]
        rw [Dossier.recorded] at recorded
        dsimp only
        omega
      · rintro _ ⟨⟩
        refine ⟨formed, ?_, balance, fun _ => ?_⟩
        · rw [total, totalAmount, totalAmount, amounts, amounts, mark_amounts]
        · have released := agrees.released (by rw [funded]; rfl)
          rw [releases, released, same]
          exact_mod_cast paid.symm
    · rintro _ ⟨⟩ unconfirmed
      rw [afterPayment_escrowTxHash] at unconfirmed
      rcases books.unconfirmed row found unconfirmed with pending | cancelled
      · rw [active] at pending
        contradiction
      · rw [active] at cancelled
        contradiction

theorem disputed_books {key : Symbol} {caller : Address} {entry : Option Entry} {paidOut : Int}
    (books : d.Books numbers) (found : d.row = some row) (active : row.status = .active)
    (moved : d.Moved (.dispute key caller) entry paidOut) :
    Books numbers { d with row := some (row.updated .disputed none), entry, paidOut } := by
  cases moved with
  | @intro entry next payouts event stored moves =>
    obtain ⟨pays, releases, funded, _⟩ := dispute_moves moves
    refine
      { books with
        unknown := fun unknown => absurd unknown (Option.some_ne_none _)
        planned := fun _ => books.planned (known found)
        unfunded := fun unfunded => absurd unfunded (Option.some_ne_none _)
        accounts := fun exact' => ⟨?_, ?_⟩
        unconfirmed := ?_
        completed := fun _ _ _ => Option.some_ne_none _ }
    · rw [pays, Int.add_zero]
      exact (books.accounts exact').recorded
    · rintro _ ⟨⟩
      have agrees := (books.accounts exact').funded entry stored
      obtain ⟨formed, total, balance⟩ := agrees.moves moves
      refine ⟨formed, total, balance, fun _ => ?_⟩
      rw [releases]
      exact agrees.released (by rw [funded]; rfl)
    · rintro _ ⟨⟩ unconfirmed
      exact absurd (updated_unconfirmed unconfirmed) (books.confirmed found (by simp [active]))

/-- An act that closes the entry and records what was left to pay. -/
theorem closed_books {call : ChainCall} {hash : TxHash} {status : ContractStatus} {left : Nat}
    {payouts : List (Escrow.Payout Address)} {event : Escrow.Event Address Symbol}
    (books : d.Books numbers) (found : d.row = some row) (stored : d.entry = some entry)
    (remains : d.remaining numbers = some left)
    (moves : Escrow.Moves call entry payouts next event) (closed : next.status.isOpen = false)
    (unconfirmed : row.escrowTxHash = none → status = .pending ∨ status = .cancelled) :
    Books numbers
      { d with
        row := some (row.updated status none)
        payments := d.payments ++ [⟨row.id, none, left, hash⟩]
        entry := some next, paidOut := d.paidOut + Escrow.payoutSum payouts } := by
  refine
    { books with
      unknown := fun unknown => absurd unknown (Option.some_ne_none _)
      planned := fun _ => books.planned (known found)
      receipted := fun m member => receipted_more (books.receipted m member) nofun
      unfunded := fun unfunded => absurd unfunded (Option.some_ne_none _)
      accounts := fun exact' => ?_
      unconfirmed := ?_
      completed := fun _ _ _ => Option.some_ne_none _ }
  · have accounts := books.accounts exact'
    have agrees := accounts.funded entry stored
    obtain ⟨formed, total, balance⟩ := agrees.moves moves
    constructor
    · have pays := moves.pays agrees.formed
      rw [Escrow.outstanding_closed closed] at pays
      obtain ⟨left', remains', whole⟩ := accounts.remaining exact' stored
      obtain rfl := Option.some.inj (remains.symm.trans remains')
      have recorded := accounts.recorded
      rw [Dossier.recorded, recorded_more]
      change ((d.recorded + left : Nat) : Int) = d.paidOut + _
      omega
    · rintro _ ⟨⟩
      refine ⟨formed, total, balance, fun isOpen => ?_⟩
      rw [closed] at isOpen
      contradiction
  · rintro _ ⟨⟩ none
    exact unconfirmed (updated_unconfirmed none)

/-- An act that closes the entry and cannot record it; exact amounts can always be recorded. -/
theorem unsettled_books {call : ChainCall} {entry : Option Entry} {paidOut : Int} (books : d.Books numbers)
    (found : d.row = some row) (tooLarge : d.remaining numbers = none) (moved : d.Moved call entry paidOut) :
    Books numbers { d with entry, paidOut } := by
  have recordable := fun exact' => books.recordable exact' moved
  cases moved with
  | intro stored moves =>
    exact
      { books with
        unknown := fun unknown => absurd unknown (known found)
        unfunded := fun unfunded => absurd unfunded (Option.some_ne_none _)
        accounts := fun exact' => absurd tooLarge (recordable exact')
        completed := fun _ _ _ => Option.some_ne_none _ }

theorem step_books (books : d.Books numbers) (step : d.Step numbers act d') : d'.Books numbers := by
  cases step with
  | created absent pending unconfirmed planned ids fresh =>
    exact created_books books absent pending planned ids fresh
  | funded found absent positive deposit same => exact funded_books books found absent positive deposit same
  | confirmed found => exact confirmed_books books found
  | submitted found active listed pending => exact submitted_books books found listed pending
  | approved found active listed inReview converted same moved =>
    exact approved_books books found active listed inReview converted same moved
  | disputed found active moved => exact disputed_books books found active moved
  | @resolved row hash key caller text decision bps left entry paidOut found disputed decided remains moved =>
    cases moved with
    | intro stored moves =>
      refine closed_books books found stored remains moves ?_ fun unconfirmed => ?_
      · rw [resolveDispute_moves moves]
        cases decision <;> rfl
      · exact absurd unconfirmed (books.confirmed found (by simp [disputed]))
  | cancelled found => exact cancelled_books books found
  | refunded found live remains moved =>
    cases moved with
    | intro stored moves =>
      refine closed_books books found stored remains moves ?_ fun _ => .inr rfl
      rw [refund_moves moves]
      rfl
  | unresolved found disputed tooLarge moved => exact unsettled_books books found tooLarge moved
  | unrefunded found live tooLarge moved => exact unsettled_books books found tooLarge moved

end Dossier
end Stellance.Backend
