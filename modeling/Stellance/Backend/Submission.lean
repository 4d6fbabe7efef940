import Stellance.Library.Polling
import Stellance.Backend.Interpreter

/-! How a call of the admin key reaches the network. The backend builds a transaction
that is valid for 60 seconds, sends it to an RPC node and asks for its fate, 21 times at
most and 1.5 seconds apart. Whether the transaction enters the ledger, and when, does not
depend on anybody still asking. -/
namespace Stellance.Escrow

/-- The name a call is invoked by. -/
def Call.fnName {Address Symbol : Type} : Call Address Symbol → String
  | .fund .. => "fund"
  | .releaseMilestone .. => "release_milestone"
  | .release .. => "release"
  | .refund .. => "refund"
  | .dispute .. => "dispute"
  | .resolveDispute .. => "resolve_dispute"

end Stellance.Escrow

namespace Stellance.Backend.Rpc
open Process

structure Transaction where
  source : Address
  sequence : Nat
  call : ChainCall
  /-- The last second it may enter a ledger at. -/
  maxTime : Nat
  deriving DecidableEq

inductive SendStatus where
  | pending
  | duplicate
  | tryAgainLater
  | error (errorResult : String)
  deriving DecidableEq

def SendStatus.errorResult : SendStatus → Option String
  | .error text => some text
  | .pending | .duplicate | .tryAgainLater => none

inductive GetTransactionStatus where
  | notFound
  | success
  | failed
  deriving DecidableEq

def GetTransactionStatus.text : GetTransactionStatus → String
  | .notFound => "NOT_FOUND"
  | .success => "SUCCESS"
  | .failed => "FAILED"

/-- What a submission awaits: the RPC node, the clock and a timer. -/
inductive Op where
  | getAccount (publicKey : Address)
  | now
  | simulateTransaction (tx : Transaction)
  | sendTransaction (prepared : Transaction)
  | getTransaction (hash : TxHash)
  | setTimeout (milliseconds : Nat)

/-- A simulation is answered with its error, if it had one. -/
abbrev Op.Answer : Op → Type
  | .getAccount _ | .now => Nat
  | .simulateTransaction _ => Option String
  | .sendTransaction _ => TxHash × SendStatus
  | .getTransaction _ => GetTransactionStatus
  | .setTimeout _ => Unit

abbrev Request (α : Type) := Process Failure Op Op.Answer α

def await (op : Op) : Request op.Answer := Process.perform op

/-- `throw new ServiceUnavailableException(...)` where there is an error to report. -/
def report (error : Option String) (message : String → String) : Request Unit :=
  match error with
  | some text => fail (.serviceUnavailable (message text))
  | none => done ()

/-- The end of `_submitAdminInvocation`: poll until the transaction is found. -/
def confirm (hash : TxHash) : Request TxHash := do
  let getResult ← await (.getTransaction hash)
  let getResult ← pollWhile (· = .notFound)
    (do
      await (.setTimeout 1500)
      await (.getTransaction hash))
    20 getResult
  throwIf (getResult ≠ .success) (.serviceUnavailable
    ("Transaction " ++ hash.text ++ " did not confirm (status: " ++ getResult.text ++ ")"))
  pure hash

/-- `_submitAdminInvocation` -/
def submitAdminInvocation (config : Config) (call : ChainCall) : Request TxHash := do
  let adminPublicKey ← orThrow config.adminPublicKey
    (.serviceUnavailable "Admin keypair not configured (STELLAR_ADMIN_SECRET)")
  let sequence ← await (.getAccount adminPublicKey)
  let now ← await .now
  let tx : Transaction := ⟨adminPublicKey, sequence + 1, call, now / 1000 + 60⟩
  let simResult ← await (.simulateTransaction tx)
  report simResult fun error => "Soroban simulation failed for " ++ call.fnName ++ ": " ++ error
  let (hash, status) ← await (.sendTransaction tx)
  report status.errorResult fun error =>
    "Transaction send failed for " ++ call.fnName ++ ": " ++ error
  confirm hash

theorem completes_report {α : Type} {W : Type}
    {serve : W → (op : Op) → Except Failure op.Answer → W → Prop} {w last : W}
    {error : Option String} {message : String → String} {rest : Unit → Request α}
    {result : Except Failure α} :
    Process.Completes serve w (report error message >>= rest) result last ↔
      (∃ text, error = some text ∧ result = .error (.serviceUnavailable (message text)) ∧ last = w) ∨
      error = none ∧ Process.Completes serve w (rest ()) result last := by
  cases error with
  | none =>
    rw [show (report none message >>= rest) = rest () from rfl]
    simp
  | some text =>
    rw [show (report (some text) message >>= rest) = fail _ from rfl, completes_fail]
    simp

theorem status_error {status : SendStatus} {text : String} (error : status.errorResult = some text) :
    status = .error text := by
  cases status with
  | error other =>
    cases error
    rfl
  | pending | duplicate | tryAgainLater => contradiction

/-! ### The network -/

/-- One poll: how long it takes, how far behind the network the node is that answers it,
and the error it ends in instead of an answer. Times are milliseconds. -/
structure Poll where
  delay : Nat
  lag : Nat
  thrown : Option Failure

/-- The ledger a transaction enters. One that failed has no effect but its fee. -/
structure Inclusion where
  time : Nat
  succeeded : Bool

/-- All that happens outside during one submission. A transaction the node did not take
never enters a ledger, and any other does so within its time bounds, or never. -/
structure Schedule where
  account : Except Failure Nat
  now : Nat
  simulation : Except Failure (Option String)
  send : Except Failure SendStatus
  /-- The time between building the transaction and the node's answer to it. -/
  latency : Nat
  polls : Nat → Poll
  inclusion : Option Inclusion
  taken : inclusion.isSome = true → send ≠ .ok .tryAgainLater ∧ ∀ text, send ≠ .ok (.error text)
  valid : ∀ entered ∈ inclusion, now ≤ entered.time ∧ entered.time ≤ (now / 1000 + 60) * 1000

/-- How far a submission has come. -/
structure Progress where
  clock : Nat
  sent : Option Transaction
  polls : Nat

def start : Progress := ⟨0, none, 0⟩

namespace Schedule

/-- What a node can tell that has seen the ledgers up to a time. -/
def statusBy (s : Schedule) (horizon : Nat) : GetTransactionStatus :=
  match s.inclusion with
  | some entered =>
    if entered.time ≤ horizon then
      if entered.succeeded then .success else .failed
    else .notFound
  | none => .notFound

def answer (hashOf : Transaction → TxHash) (s : Schedule) (w : Progress) :
    (op : Op) → Except Failure op.Answer × Progress
  | .getAccount _ => (s.account, w)
  | .now => (.ok s.now, { w with clock := s.now })
  | .simulateTransaction _ => (s.simulation, w)
  | .sendTransaction tx => (s.send.map fun status => (hashOf tx, status),
      { w with clock := w.clock + s.latency, sent := some tx })
  | .getTransaction hash =>
    let poll := s.polls w.polls
    let clock := w.clock + poll.delay
    (match poll.thrown with
      | some error => .error error
      | none => .ok (if w.sent.map hashOf = some hash then s.statusBy (clock - poll.lag) else .notFound),
      { w with clock, polls := w.polls + 1 })
  | .setTimeout milliseconds => (.ok (), { w with clock := w.clock + milliseconds })

def Serves (hashOf : Transaction → TxHash) (s : Schedule) (w : Progress) (op : Op)
    (given : Except Failure op.Answer) (w' : Progress) : Prop :=
  s.answer hashOf w op = (given, w')

/-- When the answer to a poll arrives. -/
def pollAt (s : Schedule) : Nat → Nat
  | 0 => s.now + s.latency + (s.polls 0).delay
  | n + 1 => s.pollAt n + 1500 + (s.polls (n + 1)).delay

/-- The last ledger the node has seen that answers a poll. -/
def horizon (s : Schedule) (n : Nat) : Nat := s.pollAt n - (s.polls n).lag

/-- What a poll is told. -/
def told (s : Schedule) (n : Nat) : Except Failure GetTransactionStatus :=
  match (s.polls n).thrown with
  | some error => .error error
  | none => .ok (s.statusBy (s.horizon n))

/-- The transaction is built, simulated and sent. -/
def Sends (config : Config) (s : Schedule) : Prop :=
  config.adminPublicKey.isSome = true ∧ (∃ sequence, s.account = .ok sequence) ∧ s.simulation = .ok none

/-- The transaction is applied, sooner or later. -/
def Succeeds (s : Schedule) : Prop := ∃ entered ∈ s.inclusion, entered.succeeded = true

/-- The transaction enters a ledger while somebody is looking: the node has answered that
it was sent, and one of the 21 polls, it and those before it answered, reaches a node that
has seen that ledger. -/
def Seen (s : Schedule) : Prop :=
  (∃ status, s.send = .ok status) ∧ ∃ k ≤ 20, (∀ j ≤ k, (s.polls j).thrown = none) ∧
    ∃ entered ∈ s.inclusion, entered.time ≤ s.horizon k

/-- A hash means that its transaction was applied, a failure that none was or will be. -/
def Truthful (hashOf : Transaction → TxHash) (s : Schedule) (last : Progress) :
    Except Failure TxHash → Prop
  | .ok hash => ∃ tx, last.sent = some tx ∧ hash = hashOf tx ∧
      ∃ entered ∈ s.inclusion, entered.succeeded = true ∧ entered.time ≤ last.clock
  | .error _ => last.sent = none ∨ ¬ s.Succeeds

/-! ### Polling -/

section Polling
variable {hashOf : Transaction → TxHash} {s : Schedule} {w w' last : Progress} {tx : Transaction}
  {k n : Nat} {hash : TxHash} {result : Except Failure TxHash}

/-- The transaction is sent and the poll of this number has been answered. -/
structure Polled (s : Schedule) (tx : Transaction) (n : Nat) (w : Progress) : Prop where
  sent : w.sent = some tx
  polls : w.polls = n + 1
  clock : w.clock = s.pollAt n

theorem told_ok {status : GetTransactionStatus} :
    s.told n = .ok status ↔ (s.polls n).thrown = none ∧ s.statusBy (s.horizon n) = status := by
  unfold told
  split
  · rename_i thrown
    simp [thrown]
  · rename_i answered
    simp [answered]

theorem statusBy_success {horizon : Nat} : s.statusBy horizon = .success ↔
    ∃ entered ∈ s.inclusion, entered.succeeded = true ∧ entered.time ≤ horizon := by
  unfold statusBy
  cases s.inclusion with
  | none => simp
  | some entered =>
    simp only [Option.mem_some_iff, exists_eq_left']
    split
    · rename_i past
      cases entered.succeeded <;> simp [past]
    · rename_i ahead
      simp [ahead]

theorem statusBy_of_succeeds {horizon : Nat} (succeeds : s.Succeeds) :
    s.statusBy horizon = .success ∨ s.statusBy horizon = .notFound := by
  obtain ⟨entered, known, succeeded⟩ := succeeds
  unfold statusBy
  rw [Option.mem_def.mp known]
  dsimp only
  rw [if_pos succeeded]
  split
  · exact .inl rfl
  · exact .inr rfl

theorem horizon_le : s.horizon n ≤ s.pollAt n := Nat.sub_le _ _

theorem serves_send {given : Except Failure (TxHash × SendStatus)}
    (served : s.Serves hashOf w (.sendTransaction tx) given w') :
    given = s.send.map (fun status => (hashOf tx, status)) ∧
      w' = { w with clock := w.clock + s.latency, sent := some tx } := by
  cases served
  exact ⟨rfl, rfl⟩

theorem sent_ok {status : SendStatus}
    (given : s.send.map (fun status => (hashOf tx, status)) = .ok (hash, status)) :
    s.send = .ok status ∧ hash = hashOf tx := by
  cases answered : s.send with
  | error e =>
    rw [answered] at given
    contradiction
  | ok told =>
    rw [answered] at given
    cases given
    exact ⟨rfl, rfl⟩

/-- The first poll, after the transaction was sent. -/
theorem serves_first (sent : w.sent = some tx) (polls : w.polls = 0)
    (clock : w.clock = s.now + s.latency) {told : Except Failure GetTransactionStatus}
    (served : s.Serves hashOf w (.getTransaction (hashOf tx)) told w') :
    told = s.told 0 ∧ s.Polled tx 0 w' := by
  unfold Serves answer at served
  simp only [sent, polls, clock, Option.map_some, if_true] at served
  cases served
  exact ⟨rfl, rfl, rfl, rfl⟩

/-- Any later one, 1.5 seconds after its predecessor. -/
theorem serves_next {told : Except Failure GetTransactionStatus} (polled : s.Polled tx n w)
    (asked : Process.Completes (s.Serves hashOf) w (do
      await (.setTimeout 1500)
      await (.getTransaction (hashOf tx))) told w') :
    told = s.told (n + 1) ∧ s.Polled tx (n + 1) w' := by
  obtain ⟨sent, polls, clock⟩ := polled
  rcases completes_bind.mp asked with ⟨e, rfl, waited⟩ | ⟨_, between, waited, asked⟩
  · cases completes_perform.mp waited
  · cases completes_perform.mp waited
    have served := completes_perform.mp asked
    unfold Serves answer at served
    simp only [sent, polls, clock, Option.map_some, if_true] at served
    cases served
    exact ⟨rfl, rfl, rfl, rfl⟩

/-- Asking ends with a poll of these 21, and all before it found nothing. -/
structure Ended (s : Schedule) (tx : Transaction) (m : Nat) (last : Progress) : Prop where
  polled : s.Polled tx m last
  within : m ≤ 20
  before : ∀ j < m, s.told j = .ok .notFound
  settled : m = 20 ∨ s.told m ≠ .ok .notFound

/-- The hash is returned where the last poll found the transaction applied. -/
theorem confirm_completes (sent : w.sent = some tx) (polls : w.polls = 0)
    (clock : w.clock = s.now + s.latency)
    (ran : Process.Completes (s.Serves hashOf) w (confirm (hashOf tx)) result last) :
    ∃ m, s.Ended tx m last ∧
      (s.told m = .ok .success ∧ result = .ok (hashOf tx) ∨
        s.told m ≠ .ok .success ∧ ∃ e, result = .error e) := by
  unfold confirm at ran
  rcases completes_bind.mp ran with ⟨e, rfl, asked⟩ | ⟨first, between, asked, ran⟩
  · obtain ⟨thrown, polled⟩ := serves_first sent polls clock (completes_perform.mp asked)
    have failed (status : GetTransactionStatus) : s.told 0 ≠ .ok status := by simp [← thrown]
    exact ⟨0, ⟨polled, by omega, by simp, .inr (failed _)⟩, .inr ⟨failed _, e, rfl⟩⟩
  obtain ⟨given, polled⟩ := serves_first sent polls clock (completes_perform.mp asked)
  have ends {status : Except Failure GetTransactionStatus} {there : Progress}
      (ran : Process.Completes (s.Serves hashOf) between (pollWhile (· = .notFound) (do
        await (.setTimeout 1500)
        await (.getTransaction (hashOf tx))) 20 first) status there) :
      ∃ m, s.Ended tx m there ∧ status = s.told m := by
    obtain ⟨m, within, same, polled, before, settled⟩ := completes_pollWhile s.told
      (s.Polled tx) serves_next polled given.symm (by simp [Unsettled]) ran
    refine ⟨m, ⟨polled, by omega, fun j below => ?_, ?_⟩, same⟩
    · obtain ⟨status, told, again⟩ := before j below
      rw [told, of_decide_eq_true again]
    · rcases settled with last | settled
      · exact .inl (by omega)
      · exact .inr fun told => by simpa using settled _ told
  rcases completes_bind.mp ran with ⟨e, rfl, polling⟩ | ⟨status, there, polling, ran⟩
  · obtain ⟨m, ended, thrown⟩ := ends polling
    exact ⟨m, ended, .inr ⟨by simp [← thrown], e, rfl⟩⟩
  obtain ⟨m, ended, told⟩ := ends polling
  rcases completes_throwIf.mp ran with ⟨missing, rfl, rfl⟩ | ⟨found, ran⟩
  · exact ⟨m, ended, .inr ⟨by simp [← told, missing], _, rfl⟩⟩
  · obtain ⟨rfl, rfl⟩ := completes_pure.mp ran
    exact ⟨m, ended, .inl ⟨by rw [← told, not_not.mp found], rfl⟩⟩

/-- A poll finds a transaction that succeeds once its node has seen it. -/
theorem told_success_of_seen {entered : Inclusion} (known : entered ∈ s.inclusion)
    (succeeds : s.Succeeds) (answered : (s.polls n).thrown = none) (past : entered.time ≤ s.horizon n) :
    s.told n = .ok .success := by
  obtain ⟨entered', known', succeeded⟩ := succeeds
  cases Option.mem_unique known known'
  exact told_ok.mpr ⟨answered, statusBy_success.mpr ⟨entered, known, succeeded, past⟩⟩

/-- Of a transaction that succeeds, the last poll tells so just when one of the 21 could. -/
theorem told_success_iff {m : Nat} (ended : s.Ended tx m last) (succeeds : s.Succeeds) :
    s.told m = .ok .success ↔
      ∃ k ≤ 20, (∀ j ≤ k, (s.polls j).thrown = none) ∧
        ∃ entered ∈ s.inclusion, entered.time ≤ s.horizon k := by
  constructor
  · intro success
    obtain ⟨answered, found⟩ := told_ok.mp success
    obtain ⟨entered, known, -, past⟩ := statusBy_success.mp found
    refine ⟨m, ended.within, fun j upTo => ?_, entered, known, past⟩
    rcases Nat.lt_or_eq_of_le upTo with below | rfl
    · exact (told_ok.mp (ended.before j below)).1
    · exact answered
  · rintro ⟨k, within, answered, entered, known, past⟩
    have found := told_success_of_seen known succeeds (answered k (Nat.le_refl k)) past
    rcases Nat.lt_trichotomy k m with below | rfl | above
    · -- a poll before the last one found nothing
      rw [ended.before k below] at found
      contradiction
    · exact found
    · -- the loop would have gone on to poll `k`, unless it knew better
      have answered := answered m (Nat.le_of_lt above)
      rcases statusBy_of_succeeds succeeds with found | missing
      · exact told_ok.mpr ⟨answered, found⟩
      · have more := told_ok.mpr ⟨answered, missing⟩
        rcases ended.settled with rfl | settled
        · omega
        · exact absurd more settled

end Polling

/-! ### Submissions -/

section Submissions
variable {hashOf : Transaction → TxHash} {s : Schedule} {config : Config} {call : ChainCall}
  {last : Progress} {result : Except Failure TxHash}

/-- What a submission comes to: it gives up before it sends anything, the node's answer to
the sending is an exception or an error, or the transaction is polled for. -/
inductive Comes (hashOf : Transaction → TxHash) (config : Config) (s : Schedule) :
    Except Failure TxHash → Progress → Prop where
  | unsent {e : Failure} {last : Progress} (holds : ¬ s.Sends config) (nothing : last.sent = none) :
      Comes hashOf config s (.error e) last
  | unanswered {e : Failure} {last : Progress} {tx : Transaction} (sends : s.Sends config)
      (sent : last.sent = some tx) (thrown : ∀ status, s.send ≠ .ok status) :
      Comes hashOf config s (.error e) last
  | refused {e : Failure} {last : Progress} {tx : Transaction} {text : String}
      (sends : s.Sends config) (sent : last.sent = some tx) (error : s.send = .ok (.error text)) :
      Comes hashOf config s (.error e) last
  | polled {last : Progress} {tx : Transaction} {status : SendStatus} {m : Nat}
      {result : Except Failure TxHash} (sends : s.Sends config) (answered : s.send = .ok status)
      (ended : s.Ended tx m last)
      (told : s.told m = .ok .success ∧ result = .ok (hashOf tx) ∨
        s.told m ≠ .ok .success ∧ ∃ e, result = .error e) :
      Comes hashOf config s result last

theorem submission_comes
    (ran : Process.Completes (s.Serves hashOf) start (submitAdminInvocation config call) result last) :
    s.Comes hashOf config result last := by
  unfold submitAdminInvocation at ran
  rcases completes_orThrow.mp ran with ⟨missing, rfl, rfl⟩ | ⟨adminPublicKey, key, ran⟩
  · exact .unsent (fun sends => by simp [Sends, missing] at sends) rfl
  rcases completes_bind.mp ran with ⟨e, rfl, asked⟩ | ⟨sequence, _, asked, ran⟩
  · obtain ⟨thrown, rfl⟩ := Prod.mk.inj (completes_perform.mp asked)
    exact .unsent (fun ⟨_, ⟨sequence, loaded⟩, _⟩ => by simp [thrown] at loaded) rfl
  obtain ⟨loaded, rfl⟩ := Prod.mk.inj (completes_perform.mp asked)
  rcases completes_bind.mp ran with ⟨e, rfl, asked⟩ | ⟨now, _, asked, ran⟩
  · cases completes_perform.mp asked
  cases completes_perform.mp asked
  rcases completes_bind.mp ran with ⟨e, rfl, asked⟩ | ⟨simResult, _, asked, ran⟩
  · obtain ⟨thrown, rfl⟩ := Prod.mk.inj (completes_perform.mp asked)
    exact .unsent (fun ⟨_, _, simulated⟩ => by simp [thrown] at simulated) rfl
  obtain ⟨simulated, rfl⟩ := Prod.mk.inj (completes_perform.mp asked)
  rcases completes_report.mp ran with ⟨text, failed, rfl, rfl⟩ | ⟨fine, ran⟩
  · exact .unsent (fun ⟨_, _, fine⟩ => by simp [simulated, failed] at fine) rfl
  rw [fine] at simulated
  have sends : s.Sends config := ⟨by simp [key], ⟨sequence, loaded⟩, simulated⟩
  rcases completes_bind.mp ran with ⟨e, rfl, asked⟩ | ⟨⟨hash, status⟩, _, asked, ran⟩
  · have served := completes_perform.mp asked
    obtain ⟨thrown, rfl⟩ := serves_send served
    refine .unanswered sends rfl fun status answered => ?_
    rw [answered] at thrown
    contradiction
  have served := completes_perform.mp asked
  obtain ⟨given, rfl⟩ := serves_send served
  obtain ⟨answered, rfl⟩ := sent_ok given.symm
  rcases completes_report.mp ran with ⟨text, error, rfl, rfl⟩ | ⟨_, ran⟩
  · exact .refused sends rfl (status_error error ▸ answered)
  · obtain ⟨m, ended, told⟩ := confirm_completes rfl rfl rfl ran
    exact .polled sends answered ended told

/-- Whatever the schedule, the polling comes to an end. -/
theorem submission_ends :
    ∃ result last,
      Process.Completes (s.Serves hashOf) start (submitAdminInvocation config call) result last :=
  exists_completes (fun w op => ⟨(s.answer hashOf w op).1, (s.answer hashOf w op).2, rfl⟩) _ _

/-- The outcome of a submission is true, unless its transaction is applied and nobody sees
it in time. -/
theorem submission_iff
    (ran : Process.Completes (s.Serves hashOf) start (submitAdminInvocation config call) result last) :
    s.Truthful hashOf last result ↔ (s.Sends config → s.Succeeds → s.Seen) := by
  cases submission_comes ran with
  | unsent holds nothing => exact iff_of_true (.inl nothing) fun sends => absurd sends holds
  | unanswered sends sent thrown =>
    have unseen : ¬ s.Seen := fun ⟨⟨status, answered⟩, _⟩ => thrown status answered
    simp [Truthful, sent, sends, unseen]
  | refused sends sent error =>
    have fails : ¬ s.Succeeds := by
      rintro ⟨entered, known, -⟩
      exact (s.taken (Option.isSome_of_mem known)).2 _ error
    exact iff_of_true (.inr fails) fun _ succeeds => absurd succeeds fails
  | @polled _ tx status m result sends answered ended told =>
    have seen (succeeds : s.Succeeds) : s.told m = .ok .success ↔ s.Seen :=
      (told_success_iff ended succeeds).trans (and_iff_right ⟨status, answered⟩).symm
    rcases told with ⟨success, rfl⟩ | ⟨other, e, rfl⟩
    · obtain ⟨-, found⟩ := told_ok.mp success
      obtain ⟨entered, known, succeeded, past⟩ := statusBy_success.mp found
      have applied : entered.time ≤ last.clock :=
        past.trans (ended.polled.clock ▸ horizon_le)
      exact iff_of_true ⟨tx, ended.polled.sent, rfl, entered, known, succeeded, applied⟩
        fun _ succeeds => (seen succeeds).mp success
    · have sent : last.sent ≠ none := by simp [ended.polled.sent]
      constructor
      · rintro (nothing | fails) _ succeeds
        · exact absurd nothing sent
        · exact absurd succeeds fails
      · intro confirmed
        exact .inr fun succeeds => other ((seen succeeds).mpr (confirmed sends succeeds))

/-- The polling stands behind the one operation a request submits its calls by: what it
returns is an answer of the network there, and a transaction that is applied is among the
executed ones or left pending. -/
theorem submission_refines {τ : Type} {host : Escrow.Host Address τ} {w : World τ} {request : Nat}
    (ran : Process.Completes (s.Serves hashOf) start (submitAdminInvocation config call) result last)
    (fresh : ∀ tx, hashOf tx ∉ w.chain.included)
    (works : s.Succeeds → ∀ admin ∈ config.adminPublicKey, w.chain.Succeeds host {admin} call) :
    ∃ w', Process.Completes (Backend.Serves host True request) w
        (EscrowService.submitAdminInvocation config call) result w' ∧
      (last.sent ≠ none → s.Succeeds →
        ∃ sent ∈ w'.chain.executed ++ w'.chain.pending, sent.request = request ∧ sent.call = call) := by
  have comes := submission_comes ran
  unfold submitAdminInvocation at ran
  rcases completes_orThrow.mp ran with ⟨missing, rfl, rfl⟩ | ⟨admin, key, -⟩
  · exact ⟨w, completes_orThrow.mpr (.inl ⟨missing, rfl, rfl⟩), fun sent => absurd rfl sent⟩
  have submit {w' : World τ} (served : Backend.Serves host True request w (.submit admin call) result w') :
      Process.Completes (Backend.Serves host True request) w
        (EscrowService.submitAdminInvocation config call) result w' :=
    completes_orThrow.mpr (.inr ⟨admin, key, completes_perform.mpr served⟩)
  cases result with
  | ok hash =>
    cases comes with
    | polled sends answered ended told =>
      rcases told with ⟨success, same⟩ | ⟨_, e, same⟩
      · cases same
        obtain ⟨entered, known, succeeded, -⟩ := statusBy_success.mp (told_ok.mp success).2
        have applied := works ⟨entered, known, succeeded⟩ admin key
        refine ⟨_, submit (.applied (fresh _) applied), fun _ _ =>
          ⟨⟨request, admin, call⟩, List.mem_append_left _ ?_, rfl, rfl⟩⟩
        simp [Chain.execute, applied]
      · contradiction
  | error e =>
    by_cases succeeds : s.Succeeds
    · exact ⟨_, submit (.lost e trivial), fun _ _ =>
        ⟨⟨request, admin, call⟩, List.mem_append_right _ (by simp), rfl, rfl⟩⟩
    · exact ⟨w, submit (.refused admin call e), fun _ applied => absurd applied succeeds⟩

end Submissions
end Schedule

namespace Sample

def hashOf (tx : Transaction) : TxHash :=
  ⟨String.ofList ('t' :: List.replicate tx.sequence 'x'), by simp⟩

def release : ChainCall :=
  .releaseMilestone Backend.Sample.contractId.symbol "admin" ⟨100, by norm_num, by norm_num⟩

/-- A node that answers at once and is up to date. -/
def prompt : Poll := ⟨0, 0, none⟩

/-- The transaction enters a ledger so many milliseconds after it was built. -/
def entering (time : Nat) (inTime : time ≤ 60000) : Schedule where
  account := .ok 7
  now := 0
  simulation := .ok none
  send := .ok .pending
  latency := 1000
  polls _ := prompt
  inclusion := some ⟨time, true⟩
  taken _ := ⟨by simp, by simp⟩
  valid := by simpa using inTime

/-- The last poll is answered after 31 seconds. -/
def late : Schedule := entering 40000 (by decide)

def quick : Schedule := entering 5000 (by decide)

theorem exec_serves {s : Schedule} {p : Request TxHash} {result : Except Failure TxHash} {last : Progress}
    (ran : exec (fun w op => some (s.answer hashOf w op)) start p = some (result, last)) :
    Process.Completes (s.Serves hashOf) start p result last :=
  exec_completes (s.Serves hashOf) (fun answered => Option.some.inj answered) ran

end Sample

theorem submission_iff_sample : ∃ last, Schedule.Truthful Sample.hashOf Sample.quick last
    (.ok (Sample.hashOf ⟨"admin", 8, Sample.release, 60⟩)) := by
  have ran := Sample.exec_serves (s := Sample.quick)
    (p := submitAdminInvocation Backend.Sample.config Sample.release) rfl
  refine ⟨_, (Schedule.submission_iff ran).mpr fun _ _ => ?_⟩
  exact ⟨⟨_, rfl⟩, 3, by decide, fun _ _ => rfl, _, rfl, by decide⟩

/-- 40 seconds are too late for the backend, and not for the network. -/
theorem submission_fails : ∃ result last,
    Process.Completes (Sample.late.Serves Sample.hashOf) start
      (submitAdminInvocation Backend.Sample.config Sample.release) result last ∧
    ¬ Sample.late.Truthful Sample.hashOf last result := by
  refine ⟨_, _, Sample.exec_serves rfl, ?_⟩
  rintro (nothing | fails)
  · contradiction
  · exact fails ⟨_, rfl, rfl⟩

end Stellance.Backend.Rpc
