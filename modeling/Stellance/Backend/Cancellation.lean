import Stellance.Backend.Interpreter

/-! Funds behind a dead contract. The backend takes a contract without a funding hash
for one without an entry, the fund transaction it handed out stays valid, and what it
releases, milestone by milestone, may fall short of the deposit: exactly these three slips
leave an open entry under a row on which every endpoint is refused. -/
namespace Stellance.Backend
open ContractsService
open Process (completes_throwIf completes_bind completes_pure completes_map)

namespace Dossier
variable {numbers : Numbers} {d d' : Dossier} {act : Act}

theorem dead_idle {status : ContractStatus} (dead : status = .completed ∨ status = .cancelled) :
    status ≠ .pending ∧ status ≠ .active ∧ status ≠ .disputed := by
  rcases dead with rfl | rfl <;> decide

/-- A dead row over an open entry. -/
def Stranded (d : Dossier) : Prop :=
  ∃ row entry, d.row = some row ∧ (row.status = .completed ∨ row.status = .cancelled) ∧
    d.entry = some entry ∧ entry.status.isOpen = true

/-- Nothing can be done about it. -/
theorem Stranded.stuck (stranded : d.Stranded) : ¬ d.Step numbers act d' := by
  obtain ⟨row, entry, found, dead, stored, isOpen⟩ := stranded
  have dead : ∀ row', d.row = some row' → row'.status = .completed ∨ row'.status = .cancelled := by
    intro row' found'
    obtain rfl := Option.some.inj (found.symm.trans found')
    exact dead
  intro step
  cases step with
  | created absent =>
    rw [absent] at found
    contradiction
  | funded _ absent =>
    rw [absent] at stored
    contradiction
  | confirmed found' _ status =>
    exact status.elim (dead_idle (dead _ found')).1 (dead_idle (dead _ found')).2.1
  | submitted found' active => exact (dead_idle (dead _ found')).2.1 active
  | approved found' active => exact (dead_idle (dead _ found')).2.1 active
  | disputed found' active => exact (dead_idle (dead _ found')).2.1 active
  | resolved found' disputed => exact (dead_idle (dead _ found')).2.2 disputed
  | cancelled found' live => exact (not_or.mpr live) (dead _ found')
  | refunded found' live => exact (not_or.mpr live) (dead _ found')
  | unresolved found' disputed => exact (dead_idle (dead _ found')).2.2 disputed
  | unrefunded found' live => exact (not_or.mpr live) (dead _ found')

/-- An arbitration closes the entry. -/
theorem resolved_closed {key : Symbol} {caller : Address} {decision : Escrow.DisputeDecision} {bps : UInt32}
    {entry : Option Entry} {next : Entry} {paidOut : Int}
    (moved : d.Moved (.resolveDispute key caller decision bps) entry paidOut) (left : entry = some next) :
    ¬ next.status.isOpen = true := by
  cases moved with
  | intro stored moves =>
    obtain rfl := Option.some.inj left
    rw [resolveDispute_moves moves]
    cases decision <;> decide

/-- So does a refund. -/
theorem refunded_closed {key : Symbol} {caller : Address} {entry : Option Entry} {next : Entry} {paidOut : Int}
    (moved : d.Moved (.refund key caller) entry paidOut) (left : entry = some next) :
    ¬ next.status.isOpen = true := by
  cases moved with
  | intro stored moves =>
    obtain rfl := Option.some.inj left
    rw [refund_moves moves]
    decide

/-- The release of the only milestone that is not paid yet goes through, and does not reach
the total of the entry. -/
def FallsShort (numbers : Numbers) (d d' : Dossier) : Prop :=
  ∃ milestone entry stroops next, milestone ∈ d.milestones ∧ milestone.status ≠ .paid ∧
    (∀ m ∈ d.milestones, m.id = milestone.id ∨ m.status = .paid) ∧ d.entry = some entry ∧
    numbers.release milestone.amount = some stroops ∧
    entry.releasedAmount.val + stroops < entry.totalAmount.val ∧
    d'.entry = some next ∧ entry.releasedAmount.val < next.releasedAmount.val

/-- The acts that strand an entry. -/
theorem strands (books : d.Books numbers) (step : d.Step numbers act d') (stranded : d'.Stranded) :
    (act = .funded ∧ ∃ row, d.row = some row ∧ row.status = .cancelled) ∨
    (act = .approved ∧ FallsShort numbers d d') ∨
    act = .cancelled ∧ ∃ row entry, d.row = some row ∧ row.status = .pending ∧
      row.escrowTxHash = none ∧ d.entry = some entry ∧ entry.status.isOpen = true := by
  obtain ⟨row', entry', found', dead, stored', isOpen⟩ := stranded
  cases step with
  | created absent pending =>
    obtain rfl := Option.some.inj found'
    exact absurd pending (dead_idle dead).1
  | @funded row _ _ _ _ _ _ found absent =>
    obtain rfl := Option.some.inj (found.symm.trans found')
    rcases dead with completed | cancelled
    · exact absurd absent (books.completed row found completed)
    · exact .inl ⟨rfl, row, found, cancelled⟩
  | confirmed =>
    obtain rfl := Option.some.inj found'
    exact absurd rfl (dead_idle dead).2.1
  | submitted found active =>
    obtain rfl := Option.some.inj (found.symm.trans found')
    exact absurd active (dead_idle dead).2.1
  | @approved row milestone _ _ _ stroops amount _ _ found active listed inReview converted same moved =>
    obtain rfl := Option.some.inj found'
    unfold afterPayment at dead
    split at dead
    · rename_i allPaid
      cases moved with
      | @intro entry next payouts event stored moves =>
        obtain rfl := Option.some.inj stored'
        obtain ⟨_, _, releases, status⟩ := releaseMilestone_moves moves
        have short : ¬ entry.totalAmount.val ≤ next.releasedAmount.val := by
          intro whole
          rw [status, if_pos whole] at isOpen
          contradiction
        have unpaid : milestone.status ≠ .paid := by
          rw [inReview]
          decide
        have grows : 0 < amount.val := by
          cases moves with
          | releaseMilestone _ _ _ _ positive => exact positive
        refine .inr (.inl ⟨rfl, milestone, entry, stroops, next, listed, unpaid, fun m member => ?_, stored,
          converted, by omega, rfl, by omega⟩)
        by_cases here : m.id = milestone.id
        · exact .inl here
        · exact .inr (allPaid m (Milestone.mem_mark.mpr ⟨m, member, (if_neg here).symm⟩))
    · exact absurd active (dead_idle dead).2.1
  | disputed =>
    obtain rfl := Option.some.inj found'
    exact absurd rfl (dead_idle dead).2.2
  | resolved found disputed decided remains moved => exact absurd isOpen (resolved_closed moved stored')
  | unresolved found disputed tooLarge moved => exact absurd isOpen (resolved_closed moved stored')
  | @cancelled row found live unconfirmed =>
    refine .inr (.inr ⟨rfl, row, entry', found, ?_, unconfirmed, stored', isOpen⟩)
    rcases books.unconfirmed row found unconfirmed with pending | cancelled
    · exact pending
    · exact absurd cancelled live.2
  | refunded found live remains moved => exact absurd isOpen (refunded_closed moved stored')
  | unrefunded found live tooLarge moved => exact absurd isOpen (refunded_closed moved stored')

/-- A milestone whose release falls short leaves its entry behind. -/
theorem FallsShort.stranded (short : FallsShort numbers d d') (books : d.Books numbers)
    (step : d.Step numbers .approved d') : ¬ d.Stranded ∧ d'.Stranded := by
  refine ⟨fun stranded => stranded.stuck step, ?_⟩
  obtain ⟨milestone, entry, stroops, next, listed, _, others, stored, converted, short, stored', _⟩ := short
  cases step with
  | @approved row milestone' _ _ _ _ amount _ _ found active listed' inReview converted' same moved =>
    have unpaid : milestone'.status ≠ .paid := by
      rw [inReview]
      decide
    have last := (others _ listed').resolve_right unpaid
    obtain rfl := List.inj_on_of_nodup_map books.ids listed' listed last
    obtain rfl := Option.some.inj (converted.symm.trans converted')
    have allPaid : ∀ m ∈ Milestone.mark d.milestones milestone'.id .paid, m.status = .paid := by
      intro m member
      obtain ⟨old, inside, rfl⟩ := Milestone.mem_mark.mp member
      split
      · rfl
      · rename_i other
        exact (others old inside).resolve_left other
    cases moved with
    | intro there moves =>
      obtain rfl := Option.some.inj (stored.symm.trans there)
      obtain rfl := Option.some.inj stored'
      obtain ⟨_, _, releases, status⟩ := releaseMilestone_moves moves
      rw [if_neg (by omega)] at status
      refine ⟨_, _, rfl, .inl ?_, rfl, by rw [status]; rfl⟩
      rw [afterPayment, if_pos allPaid]
      rfl

end Dossier

section Slips
variable {τ : Type} {host : Escrow.Host Address τ} {config : Config} {ours : Uuid → Prop}
  {start joint joint' : Joint τ} {label : Label} {id : Uuid} {trace : List (Joint τ × Label)}
  {w w' : World τ}

/-- An accepted cancellation of a pending contract whose entry is open already, a funding that
goes through on a cancelled contract, or the release for its last unpaid milestone that falls
short of the total. -/
def Strands (host : Escrow.Host Address τ) (config : Config) (id : Uuid) (joint : Joint τ) (label : Label)
    (after : Joint τ) : Prop :=
  match label with
  | .request (.cancel key callerId role) =>
      key = id ∧ ∃ view entry, joint.world.db.contractView id = some view ∧
        (view.clientId = callerId ∨ role = .admin) ∧ view.status = .pending ∧
        view.escrowTxHash = none ∧ joint.world.chain.ledger.entry id.symbol = some entry ∧
        entry.status.isOpen = true
  | .request (.approveMilestone key _ _) =>
      key = id ∧ Dossier.FallsShort config.numbers (joint.world.dossier id) (after.world.dossier id)
  | .fund key auths call _ =>
      key = id ∧ joint.world.chain.Succeeds host auths call ∧
        ∃ row, joint.world.db.contracts.find id = some row ∧ row.status = .cancelled
  | _ => False

/-- Without a funding hash a cancellation goes through at once. -/
theorem cancel_unconfirmed {callerId : Uuid} {role : UserRole} {view : ContractView}
    {result : Except Failure Response} (found : w.db.contractView id = some view)
    (allowed : view.clientId = callerId ∨ role = .admin) (pending : view.status = .pending)
    (unconfirmed : view.escrowTxHash = none)
    (ran : Completes host w (handle config (.cancel id callerId role)) result w') :
    w'.dossier id = { w.dossier id with row := some (view.toContract.updated .cancelled none) } := by
  obtain ⟨stored, _, referred, _⟩ := Db.contractView_some found
  obtain ⟨first, rfl, completed⟩ := completes_map.mp ran
  rcases getContract.mp completed with ⟨missing, _⟩ | ⟨view', found', completed⟩
  · rw [missing] at found
    contradiction
  obtain rfl := Option.some.inj (found.symm.trans found')
  rcases completes_throwIf.mp completed with ⟨⟨notOwner, notAdmin⟩, _⟩ | ⟨_, completed⟩
  · exact (allowed.elim notOwner notAdmin).elim
  rcases completes_throwIf.mp completed with ⟨dead, _⟩ | ⟨_, completed⟩
  · simp [pending] at dead
  rcases completes_throwIf.mp completed with ⟨⟨confirmed, _⟩, _⟩ | ⟨_, completed⟩
  · simp [unconfirmed] at confirmed
  rw [if_neg (by simp [unconfirmed])] at completed
  have completed := await_remaining.mp completed
  have job : w.db.jobs.find view.job.id = some view.job := by
    rw [Table.key_of_find referred]
    exact referred
  have possible : ∃ db, w.db.executeAll (cancelStatements id view.job.id 0 none) =
      some db := by
    apply Db.statusUpdate_possible .cancelled stored
    intro between same
    obtain ⟨db, executed⟩ := Db.jobUpdate_possible .open (same ▸ job)
    exact ⟨db, (executeAll_single ..).trans executed⟩
  rcases await_transaction.mp completed with ⟨refused, _⟩ | ⟨db, executed, completed⟩
  · obtain ⟨db, executed⟩ := possible
    rw [refused] at executed
    contradiction
  · have completed := await_notify.mp completed
    have completed := await_notify.mp completed
    obtain ⟨_, rfl⟩ := completes_pure.mp completed
    obtain ⟨_, row, stored', after⟩ := dossierOf_statusUpdate w.chain.ledger (oneJob _ _) executed
    obtain rfl := Option.some.inj (stored.symm.trans stored')
    exact after

/-- An approval leaves other contracts alone. -/
theorem approve_others {key milestoneId callerId : Uuid} (sound : joint.Sound config ours)
    (step : Joint.Step host config ours joint (.request (.approveMilestone key milestoneId callerId)) joint')
    (id : Uuid) (other : id ≠ key) : joint'.world.dossier id = joint.world.dossier id := by
  cases step with
  | request ran =>
    obtain ⟨w₁, notes, effect, rfl⟩ := approveMilestone_leaves ran
    cases effect with
    | nothing => rfl
    | failed _ _ _ fails => exact dossierOf_failed fails
    | approved found caller active listed inReview converted same released recorded =>
      obtain ⟨admin, entry, paidOut, carried⟩ := released.carried (fun _ => rfl) fun _ => rfl
      have touched := recorded_touches sound.linked found active (Db.listed found listed).1 inReview converted
        same carried recorded
      exact touched.1 id other

/-- A step that is none of these keeps what is stranded, and strands nothing. -/
theorem step_unstranded (sound : joint.Sound config ours) (mine : ours id)
    (step : Joint.Step host config ours joint label joint') (clean : ¬ Strands host config id joint label joint') :
    (joint'.world.dossier id).Stranded ↔ (joint.world.dossier id).Stranded := by
  have books := sound.books id mine
  rcases step_dossier sound mine step with same | ⟨act, acts, taken⟩
  · rw [same]
  refine iff_of_false (fun stranded => ?_) fun stranded => stranded.stuck taken
  rcases Dossier.strands books taken stranded with ⟨rfl, row, found, cancelled⟩ | ⟨rfl, short⟩ |
    ⟨rfl, row, entry, found, pending, unconfirmed, stored, isOpen⟩
  · cases label with
    | fund key auths call hash =>
      obtain ⟨others, own⟩ := fund_touches sound step
      by_cases here : id = key
      · subst here
        rcases own mine with ⟨_, same⟩ | ⟨succeeds, _⟩
        · exact (same ▸ stranded).stuck taken
        · exact clean ⟨rfl, succeeds, row, found, cancelled⟩
      · exact (others id here ▸ stranded).stuck taken
    | request endpoint => cases endpoint <;> cases acts
    | other | tokens | elsewhere => contradiction
  · cases label with
    | request endpoint =>
      cases endpoint with
      | approveMilestone key =>
        by_cases here : id = key
        · exact clean ⟨here.symm, short⟩
        · have others := approve_others sound step id here
          exact (others ▸ stranded).stuck taken
      | _ => cases acts
    | fund | other | tokens | elsewhere => cases acts
  · cases label with
    | request endpoint =>
      cases endpoint with
      | cancel key callerId role =>
        cases step with
        | request ran =>
          obtain ⟨w₁, notes, effect, rfl⟩ := cancel_leaves ran
          cases effect with
          | nothing => exact stranded.stuck taken
          | @failed signer call hash _ _ _ fails =>
            have same : (joint.world.sent host signer call hash).dossier id = joint.world.dossier id :=
              dossierOf_failed fails
            have was : (joint.world.dossier id).Stranded := by
              rw [← same]
              exact stranded
            exact was.stuck taken
          | @cancelled _ _ _ view _ _ _ _ seen allowed live refunded settles =>
            by_cases here : id = key
            · subst here
              obtain rfl := Option.some.inj (found.symm.trans (Db.contractView_some seen).1)
              exact clean ⟨rfl, view, entry, seen, allowed, pending, unconfirmed, stored, isOpen⟩
            · have others := (cancelled_touches sound.linked seen live refunded settles).1
              exact (others id here ▸ stranded).stuck taken
      | _ => cases acts
    | fund | other | tokens | elsewhere => cases acts

/-- The slips strand the entry. -/
theorem step_stranded (sound : joint.Sound config ours) (mine : ours id)
    (step : Joint.Step host config ours joint label joint') (slips : Strands host config id joint label joint') :
    ¬ (joint.world.dossier id).Stranded ∧ (joint'.world.dossier id).Stranded := by
  cases label with
  | request endpoint =>
    cases endpoint with
    | cancel key callerId role =>
      obtain ⟨rfl, view, entry, found, allowed, pending, unconfirmed, stored, isOpen⟩ := slips
      cases step with
      | request ran =>
        have after := cancel_unconfirmed found allowed pending unconfirmed ran
        constructor
        · rintro ⟨row, _, found', dead, _⟩
          obtain rfl := Option.some.inj (found'.symm.trans (Db.contractView_some found).1)
          exact (Dossier.dead_idle dead).1 pending
        · rw [after]
          exact ⟨_, entry, rfl, .inr rfl, stored, isOpen⟩
    | approveMilestone key =>
      obtain ⟨rfl, short⟩ := slips
      rcases step_dossier sound mine step with same | ⟨act, acts, taken⟩
      · obtain ⟨_, entry, _, next, _, _, _, stored, _, _, stored', grows⟩ := short
        rw [same, stored] at stored'
        obtain rfl := Option.some.inj stored'
        exact absurd grows (lt_irrefl _)
      · obtain rfl := Option.some.inj acts
        exact short.stranded (sound.books _ mine) taken
    | _ => contradiction
  | fund key auths call hash =>
    obtain ⟨rfl, succeeds, row, found, cancelled⟩ := slips
    rcases (fund_touches sound step).2 mine with ⟨fails, _⟩ | ⟨_, taken⟩
    · exact absurd succeeds fails
    · generalize joint'.world.dossier key = d' at taken
      cases taken with
      | funded _ absent =>
        constructor
        · rintro ⟨_, entry, _, _, stored, _⟩
          rw [absent] at stored
          contradiction
        · exact ⟨row, _, found, .inr cancelled, rfl, rfl⟩
  | other | tokens | elsewhere => contradiction

/-- No funds behind a dead contract. -/
def Cleared (w : World τ) (id : Uuid) : Prop :=
  ∀ row, w.db.contracts.find id = some row → row.status = .completed ∨ row.status = .cancelled →
    ∀ entry, w.chain.ledger.entry id.symbol = some entry → entry.status.isOpen = false

theorem cleared_iff : Cleared w id ↔ ¬ (w.dossier id).Stranded := by
  constructor
  · rintro cleared ⟨row, entry, found, dead, stored, isOpen⟩
    have closed := cleared row found dead entry stored
    rw [isOpen] at closed
    contradiction
  · intro clean row found dead entry stored
    cases opened : entry.status.isOpen with
    | false => rfl
    | true => exact absurd ⟨row, entry, found, dead, stored, opened⟩ clean

/-- A contract is cleared in exactly the runs without one of the three slips. -/
theorem cleared_iff_no_slip (run : Runs.Run (Joint.Step host config ours) start trace joint)
    (started : start.Started) (mine : ours id) :
    Cleared joint.world id ↔
      ∀ step ∈ Runs.steps trace joint, ¬ Strands host config id step.1 step.2.1 step.2.2 := by
  have before : ¬ (start.world.dossier id).Stranded := by
    rw [started.dossier]
    rintro ⟨_, _, found, _⟩
    contradiction
  have good : ∀ {s : Joint τ} {l t}, s.Sound config ours → Joint.Step host config ours s l t →
      ¬ Strands host config id s l t → (t.world.dossier id).Stranded = (s.world.dossier id).Stranded :=
    fun sound step clean => propext (step_unstranded sound mine step clean)
  have bad : ∀ {s : Joint τ} {l t}, s.Sound config ours → Joint.Step host config ours s l t →
      Strands host config id s l t → (s.world.dossier id).Stranded < (t.world.dossier id).Stranded := by
    intro s l t sound step slips
    obtain ⟨unstranded, stranded⟩ := step_stranded sound mine step slips
    exact lt_of_le_not_ge (fun was => absurd was unstranded) fun back => unstranded (back stranded)
  have counted := run.unchanged_steps_iff started.sound step_sound good bad
  rw [cleared_iff, ← counted.2]
  constructor
  · intro clean
    exact propext (iff_of_false clean before)
  · intro same
    rw [same]
    exact before

end Slips

namespace Sample

/-- The client funds the contract and cancels it before the funding is confirmed. -/
theorem slipped : ∃ trace joint,
    Runs.Run (Joint.Step host config fun _ => True) start trace joint ∧
      ¬ Cleared joint.world contractId := by
  have happens : ∃ created, start.request host config supply (.create clientId dto) = some created ∧
      ∃ funded, created.fund host supply contractId {"client"} = some funded ∧
      ∃ cancelled, funded.2.request host config supply (.cancel contractId clientId .client) =
        some cancelled ∧
      ∃ row, cancelled.world.db.contracts.find contractId = some row ∧ row.status = .cancelled ∧
      ∃ entry, cancelled.world.chain.ledger.entry contractId.symbol = some entry ∧
        entry.status.isOpen = true := by
    decide
  obtain ⟨created, first, funded, second, cancelled, third, row, found, dead, entry, stored, isOpen⟩ :=
    happens
  have run : Runs.Run (Joint.Step host config fun _ => True) start _ cancelled :=
    .tail (.tail (.tail .refl (Joint.request_step first)) (Joint.fund_step second))
      (Joint.request_step third)
  refine ⟨_, cancelled, run, fun cleared => ?_⟩
  have closed := cleared row found (.inr dead) entry stored
  rw [isOpen] at closed
  contradiction

end Sample

/-- Funds can be left behind a dead contract. -/
theorem cleared_fails : ¬ ∀ (start joint : Joint (Escrow.Bank Address))
    (trace : List (Joint (Escrow.Bank Address) × Label)) (id : Uuid), start.Started →
    Runs.Run (Joint.Step Sample.host Sample.config fun _ => True) start trace joint →
    Cleared joint.world id := by
  intro always
  obtain ⟨trace, joint, run, slipped⟩ := Sample.slipped
  exact slipped (always _ joint trace _ Sample.started run)

/-- The run that leaves them there has one of the slips. -/
theorem cleared_iff_no_slip_sample : ∃ trace joint,
    Runs.Run (Joint.Step Sample.host Sample.config fun _ => True) Sample.start trace joint ∧
      ∃ step ∈ Runs.steps trace joint,
        Strands Sample.host Sample.config Sample.contractId step.1 step.2.1 step.2.2 := by
  obtain ⟨trace, joint, run, slipped⟩ := Sample.slipped
  refine ⟨trace, joint, run, ?_⟩
  by_contra none
  refine slipped ((cleared_iff_no_slip run Sample.started trivial).mpr ?_)
  intro step member slips
  exact none ⟨step, member, slips⟩

end Stellance.Backend
