import Stellance.Escrow.Lifecycle
import Stellance.Library.Lease

/-! Ledger time. The network archives an entry whose time to live has run out, and ledgers
close between the calls. Every entry point that stores an entry extends it afterwards, so
an open entry that is called on often enough is never archived. -/
namespace Stellance.Escrow
variable {Address Symbol τ : Type} [DecidableEq Address] [DecidableEq Symbol]

/-- What happens to a ledger over time: an action, in which a new entry starts with some
time to live, or a number of ledgers close. -/
inductive Passing (Address Symbol τ : Type) where
  | act (newEntryTtl : Nat) (action : Action Address Symbol τ)
  | close (ledgers : Nat)

def Host.starting (host : Host Address τ) (newEntryTtl : Nat) : Host Address τ :=
  { host with newEntryTtl }

/-- Every entry is nearer its end by the ledgers that closed. -/
def State.age (state : State Address Symbol τ) (ledgers : Nat) : State Address Symbol τ :=
  { state with ttl := fun key => state.ttl key - ledgers }

/-- Calls may find an archived entry here, which the network does not let them: there are
more runs than the network has. -/
inductive Passes (host : Host Address τ) (before : Ledger Address Symbol τ) :
    Passing Address Symbol τ → Ledger Address Symbol τ → Prop where
  | act {newEntryTtl : Nat} (positive : 0 < newEntryTtl) (action : Action Address Symbol τ) :
      Passes host before (.act newEntryTtl action) (before.act (host.starting newEntryTtl) action)
  | close (ledgers : Nat) :
      Passes host before (.close ledgers) ⟨before.state.age ledgers, before.receipts⟩

/-- Nothing is left of the time to live of an entry. -/
def Ledger.Archived (ledger : Ledger Address Symbol τ) (id : Symbol) : Prop :=
  (ledger.entry id).isSome ∧ ledger.state.ttl id = 0

def Ledger.Open (ledger : Ledger Address Symbol τ) (id : Symbol) : Prop :=
  ∃ entry, ledger.entry id = some entry ∧ entry.status.isOpen = true

/-- A successful call on an id. -/
def Passing.touches (host : Host Address τ) (id : Symbol) :
    Ledger Address Symbol τ × Passing Address Symbol τ → Bool
  | (ledger, .act newEntryTtl (.call auths call)) => call.contractId = id ∧
      (invoke (host.starting newEntryTtl) auths call ledger.state).1.outcome = .ok
  | _ => false

def Passing.ledgers : Passing Address Symbol τ → Nat
  | .act .. => 0
  | .close ledgers => ledgers

/-- The ledgers that closed since the last successful call on an id. -/
def touched (host : Host Address τ) (id : Symbol) :
    Lease.Clock (Ledger Address Symbol τ) (Passing Address Symbol τ) where
  renews := Passing.touches host id
  lasts := Passing.ledgers

/-! ### One step -/

section Ledgers
variable {host : Host Address τ} {before after ledger : Ledger Address Symbol τ} {id key : Symbol}
  {passing : Passing Address Symbol τ} {auths : Finset Address} {call : Call Address Symbol}

omit [DecidableEq Address] in
/-- An extension comes after the entry is stored and leaves at least the threshold. -/
theorem State.stored_ttl_here (state : State Address Symbol τ) (tokens : τ)
    (entry : EscrowEntry Address) : ttlExtendIfBelow ≤ (state.stored host tokens id entry).ttl id := by
  simp only [State.stored, State.extend]
  split
  · rw [Function.update_self]
    decide
  · omega

omit [DecidableEq Address] in
theorem State.stored_ttl_apart (state : State Address Symbol τ) (tokens : τ)
    (entry : EscrowEntry Address) (apart : key ≠ id) :
    (state.stored host tokens id entry).ttl key = state.ttl key := by
  have put : ({ state with tokens }.put host id entry).ttl key = state.ttl key := by
    simp only [State.put]
    split
    · rfl
    · exact Function.update_of_ne apart _ _
  simp only [State.stored, State.extend]
  split
  · rw [Function.update_of_ne apart]
    exact put
  · exact put

/-- A call stores the entry of its id, or fails and leaves the state. -/
theorem call_stores (host : Host Address τ) (ledger : Ledger Address Symbol τ) (auths : Finset Address)
    (call : Call Address Symbol) :
    ((invoke host auths call ledger.state).1.outcome = .ok ∧ ∃ tokens entry,
      (ledger.act host (.call auths call)).state =
        ledger.state.stored host tokens call.contractId entry) ∨
    ((invoke host auths call ledger.state).1.outcome ≠ .ok ∧
      (ledger.act host (.call auths call)).state = ledger.state) := by
  simp only [Ledger.act, invoke]
  cases returned : call.body host (enter auths ledger.state) with
  | ok u env =>
    refine .inl ⟨rfl, ?_⟩
    rcases body_ok.mp returned with opens | settles
    · cases opens
      exact ⟨_, _, rfl⟩
    · cases settles
      exact ⟨_, _, rfl⟩
  | error stop env => exact .inr ⟨by simp, rfl⟩

/-- After a successful call its entry lives for the threshold at least. -/
theorem call_extends (succeeds : (invoke host auths call ledger.state).1.outcome = .ok) :
    ttlExtendIfBelow ≤ (ledger.act host (.call auths call)).state.ttl call.contractId := by
  rcases call_stores host ledger auths call with ⟨_, tokens, entry, stored⟩ | ⟨failed, _⟩
  · rw [stored]
    exact State.stored_ttl_here _ _ _
  · contradiction

theorem call_apart_keeps (untouched : ¬ (call.contractId = id ∧
      (invoke host auths call ledger.state).1.outcome = .ok)) :
    (ledger.act host (.call auths call)).entry id = ledger.entry id ∧
      (ledger.act host (.call auths call)).state.ttl id = ledger.state.ttl id := by
  rcases call_stores host ledger auths call with ⟨succeeds, tokens, entry, stored⟩ | ⟨_, same⟩
  · have apart : id ≠ call.contractId := fun same => untouched ⟨same.symm, succeeds⟩
    refine ⟨?_, ?_⟩
    · rw [Ledger.entry, stored]
      exact Finmap.lookup_insert_of_ne _ apart
    · rw [stored]
      exact State.stored_ttl_apart _ _ _ apart
  · rw [Ledger.entry, same]
    exact ⟨rfl, rfl⟩

/-- A step that is no successful call on an id leaves its entry, which ages by the
ledgers that close. -/
theorem passes_untouched (passes : Passes host before passing after)
    (untouched : Passing.touches host id (before, passing) = false) :
    after.entry id = before.entry id ∧
      before.state.ttl id ≤ after.state.ttl id + passing.ledgers := by
  cases passes with
  | @act newEntryTtl _ action =>
    cases action with
    | outside tokens => exact ⟨rfl, le_refl _⟩
    | call auths call =>
      obtain ⟨same, ttl⟩ := call_apart_keeps (of_decide_eq_false untouched)
      exact ⟨same, le_of_eq ttl.symm⟩
  | close ledgers => exact ⟨rfl, Nat.sub_le_iff_le_add.mp (le_refl _)⟩

theorem touched_keeps (host : Host Address τ) (id : Symbol) :
    (touched host id).Keeps (Passes host) (fun ledger => (ledger.entry id).isSome = true)
      (fun ledger => ledger.Open id) (fun ledger => ledger.state.ttl id) ttlExtendIfBelow where
  renewed := by
    intro before passing after passes touches
    cases passes with
    | @act newEntryTtl _ action =>
      cases action with
      | outside => contradiction
      | call auths call =>
        obtain ⟨rfl, succeeds⟩ := of_decide_eq_true touches
        exact call_extends succeeds
    | close => contradiction
  runs_down := by
    intro before passing after passes untouched there
    obtain ⟨same, ttl⟩ := passes_untouched passes untouched
    exact ⟨same ▸ there, ttl⟩
  stays := by
    rintro before passing after passes untouched ⟨entry, found, opened⟩
    obtain ⟨same, _⟩ := passes_untouched passes untouched
    exact ⟨entry, same.trans found, opened⟩

/-- Every successful call leaves its entry the threshold to live, and an entry whose
successful calls come less than the threshold apart is never archived while it is open. -/
theorem touched_escrows_live {initial : Symbol → Nat} {tokens : τ}
    {trace : List (Ledger Address Symbol τ × Passing Address Symbol τ)}
    (run : Runs.Run (Passes host) (Ledger.deployed initial tokens) trace ledger) :
    (∀ newEntryTtl auths call,
      (invoke (host.starting newEntryTtl) auths call ledger.state).1.outcome = .ok →
      ttlExtendIfBelow ≤ (ledger.act (host.starting newEntryTtl)
        (.call auths call)).state.ttl call.contractId) ∧
    ∀ id, (touched host id).Timely (·.Open id) ttlExtendIfBelow trace ledger →
      (∀ before point after, trace = before ++ point :: after →
        point.1.Open id → ¬ point.1.Archived id) ∧
      (ledger.Open id → ¬ ledger.Archived id) := by
  refine ⟨fun newEntryTtl auths call => call_extends, ?_⟩
  intro id timely
  have fresh : ¬ ((Ledger.deployed initial tokens : Ledger Address Symbol τ).entry id).isSome := by
    rw [deployed_entry]
    simp
  have held : ∀ ledger : Ledger Address Symbol τ, ledger.Open id → (ledger.entry id).isSome := by
    rintro ledger ⟨entry, found, _⟩
    rw [found]
    rfl
  obtain ⟨along, last⟩ := (touched_keeps host id).alive run fresh timely held
  refine ⟨fun before point after cut here archived => ?_, fun here archived => ?_⟩
  · have alive := along before point after cut here
    exact absurd archived.2 (Nat.ne_of_gt alive)
  · have alive := last here
    exact absurd archived.2 (Nat.ne_of_gt alive)

end Ledgers

/-- A deposit, and then as many ledgers as an entry is sure to live. -/
def Bank.resting : Ledger Nat Nat (Bank Nat) :=
  let funded := (Ledger.deployed (fun _ => 0) (endowed 1000000 0)).act ((host 0).starting 1) funding
  ⟨funded.state.age 518399, funded.receipts⟩

theorem touched_escrows_live_bank : Bank.resting.Open 7 ∧ ¬ Bank.resting.Archived 7 := by
  have opened : Bank.resting.Open 7 := ⟨.opened 1 2 3 (.fromU32 1000) 9, by decide, rfl⟩
  have deposit : Passes (Bank.host 0) (.deployed (fun _ => 0) (Bank.endowed 1000000 0))
      (.act 1 Bank.funding) _ := .act (by decide) _
  have run : Runs.Run (Passes (Bank.host 0)) _ _ Bank.resting :=
    .tail (.tail .refl deposit) (.close 518399)
  refine ⟨opened, ((touched_escrows_live run).2 7 ⟨?_, ?_⟩).2 opened⟩
  · intro before point after cut touches here
    rcases before with _ | ⟨first, _ | ⟨second, rest⟩⟩
    · obtain ⟨rfl, _⟩ := List.cons.inj cut
      obtain ⟨entry, found, _⟩ := here
      rw [deployed_entry] at found
      contradiction
    · obtain ⟨_, cut⟩ := List.cons.inj cut
      obtain ⟨rfl, _⟩ := List.cons.inj cut
      contradiction
    · simp at cut
  · intro _
    decide

end Stellance.Escrow
