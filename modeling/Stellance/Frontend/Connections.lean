import Stellance.Frontend.Wallet

/-! What the scripts of the wallet can do, one answer at a time, and what follows for the page:
which account is connected, who connected it, and whose balance is shown. -/
namespace Stellance.Frontend
open Backend (BalanceLine)

namespace Wallet

/-! ### Stages -/

/-- Where a script is: what it awaits, and whether an effect awaits it. -/
inductive Stage where
  | probing
  | addressing
  | asking
  | granting
  | loading (key : String)
  | finished
  deriving DecidableEq

def stageOf (ofEffect : Bool) : Script Unit → Stage
  | .await .isConnected _ => if ofEffect then .probing else .asking
  | .await .getAddress _ => .addressing
  | .await .requestAccess _ => .granting
  | .await (.loadAccount key) _ => .loading key
  | .await (.update _) _ | .await .cancelled _ | .done _ | .fail _ => .finished

/-- The key whose balance is awaited. -/
def Stage.key : Stage → Option String
  | .loading key => some key
  | .probing | .addressing | .asking | .granting | .finished => none

def Pending.stage (task : Pending) : Stage := stageOf task.effectOf.isSome task.rest

end Wallet

namespace WalletState

/-- A key arrives, and its balance is asked for. -/
def opened (s : WalletState) (key : String) : WalletState := (s.setConnected key).setLoadingBalance true

def refused (s : WalletState) (message : String) : WalletState :=
  (s.setError (some message)).setStatus .disconnected

def loaded (s : WalletState) (balance : String) : WalletState := (s.setBalance balance).setLoadingBalance false

end WalletState

namespace Wallet

/-- What one answer does to the store and to the script that awaited it. -/
inductive Turn (cancelled : Bool) (s : WalletState) : Stage → WalletState → Stage → Prop where
  | installed : Turn cancelled s .asking s .granting
  | notFound : Turn cancelled s .asking (s.refused notFoundMessage) .finished
  | failed (stage : Stage) (message : String) (asks : stage = .asking ∨ stage = .granting) :
      Turn cancelled s stage (s.refused message) .finished
  | granted (key : String) (given : key ≠ "") : Turn cancelled s .granting (s.opened key) (.loading key)
  | found (live : cancelled = false) : Turn cancelled s .probing (s.setStatus .checking) .addressing
  | dropped (stage : Stage) (reconnects : stage = .probing ∨ stage = .addressing) (dead : cancelled = true) :
      Turn cancelled s stage s .finished
  | absent (stage : Stage) (reconnects : stage = .probing ∨ stage = .addressing) (live : cancelled = false) :
      Turn cancelled s stage (s.setStatus .disconnected) .finished
  | restored (key : String) (given : key ≠ "") (live : cancelled = false) :
      Turn cancelled s .addressing (s.opened key) (.loading key)
  | loaded (key balance : String) : Turn cancelled s (.loading key) (s.loaded balance) .finished

/-- A script whose every answer is one of these turns. -/
inductive Staged (ofEffect : Bool) : Script Unit → Prop where
  | done : Staged ofEffect (.done ())
  | await {op : Op} {next : Except Thrown op.Answer → Script Unit}
      (turns : ∀ cancelled s answer, Turn cancelled s (stageOf ofEffect (.await op next))
        (settle cancelled s (next answer)).1 (stageOf ofEffect (settle cancelled s (next answer)).2))
      (rests : ∀ cancelled s answer, Staged ofEffect (settle cancelled s (next answer)).2) :
      Staged ofEffect (.await op next)

variable {formatXlm : String → String} {ofEffect cancelled : Bool} {s : WalletState} {key : String}

/-- A script that has only a balance left to show. -/
theorem loading_staged {next : Except Thrown (List BalanceLine) → Script Unit}
    (loads : ∀ cancelled s answer, ∃ balance, settle cancelled s (next answer) = (s.loaded balance, .done ())) :
    Staged ofEffect (.await (.loadAccount key) next) := by
  refine .await (fun c s answer => ?_) fun c s answer => ?_
  · obtain ⟨balance, same⟩ := loads c s answer
    rw [same]
    exact .loaded key balance
  · obtain ⟨balance, same⟩ := loads c s answer
    rw [same]
    exact .done

theorem fetchBalance_staged : Staged ofEffect (settle cancelled s (fetchBalance formatXlm key)).2 := by
  refine loading_staged fun c s answer => ?_
  cases answer <;> exact ⟨_, rfl⟩

theorem refreshBalance_staged {publicKey : Option String} :
    Staged false (settle cancelled s (refreshBalance formatXlm publicKey)).2 := by
  unfold refreshBalance
  split
  · exact fetchBalance_staged
  · exact .done

variable (formatXlm)

/-- A key is connected where there is one. -/
theorem connectKey_staged (cancelled : Bool) (s : WalletState) (key : Option String) :
    Turn cancelled s .granting
        (settle cancelled s ((connectKey formatXlm key).tryCatch connectFailed)).1
        (stageOf false (settle cancelled s ((connectKey formatXlm key).tryCatch connectFailed)).2) ∧
      Staged false (settle cancelled s ((connectKey formatXlm key).tryCatch connectFailed)).2 := by
  unfold connectKey
  cases given : key.filter (· ≠ "") with
  | none => exact ⟨.failed .granting _ (.inr rfl), .done⟩
  | some key =>
    refine ⟨.granted key ?_, ?_⟩
    · simpa using (Option.filter_eq_some_iff.mp given).2
    · refine loading_staged fun c s answer => ?_
      cases answer <;> exact ⟨_, rfl⟩

theorem connectInstalled_staged (cancelled : Bool) (s : WalletState) (installed : Bool) :
    Turn cancelled s .asking
        (settle cancelled s ((connectInstalled formatXlm installed).tryCatch connectFailed)).1
        (stageOf false (settle cancelled s ((connectInstalled formatXlm installed).tryCatch connectFailed)).2) ∧
      Staged false (settle cancelled s ((connectInstalled formatXlm installed).tryCatch connectFailed)).2 := by
  cases installed with
  | false => exact ⟨.notFound, .done⟩
  | true =>
    refine ⟨.installed, .await (fun c s answer => ?_) fun c s answer => ?_⟩
    · rcases answer with thrown | (key | ⟨_ | key, _ | error⟩ | _)
      · exact .failed .granting (friendlyMsg thrown) (.inr rfl)
      · exact (connectKey_staged formatXlm c s (some key)).1
      · exact (connectKey_staged formatXlm c s none).1
      · exact .failed .granting (friendlyMsg (.error error)) (.inr rfl)
      · exact (connectKey_staged formatXlm c s (some key)).1
      · exact (connectKey_staged formatXlm c s (some key)).1
      · exact (connectKey_staged formatXlm c s none).1
    · rcases answer with thrown | (key | ⟨_ | key, _ | error⟩ | _)
      · exact .done
      · exact (connectKey_staged formatXlm c s (some key)).2
      · exact (connectKey_staged formatXlm c s none).2
      · exact .done
      · exact (connectKey_staged formatXlm c s (some key)).2
      · exact (connectKey_staged formatXlm c s (some key)).2
      · exact (connectKey_staged formatXlm c s none).2

theorem connect_staged : Staged false (settle cancelled s (connect formatXlm)).2 := by
  refine .await (fun c s answer => ?_) fun c s answer => ?_
  · cases answer with
    | error thrown => exact .failed .asking (friendlyMsg thrown) (.inl rfl)
    | ok result => exact (connectInstalled_staged formatXlm c s result.installed).1
  · cases answer with
    | error thrown => exact .done
    | ok result => exact (connectInstalled_staged formatXlm c s result.installed).2

theorem restoreKey_staged (s : WalletState) (key : Option String) :
    Turn false s .addressing
        (settle false s ((restoreKey formatXlm key).tryCatch reconnectFailed)).1
        (stageOf true (settle false s ((restoreKey formatXlm key).tryCatch reconnectFailed)).2) ∧
      Staged true (settle false s ((restoreKey formatXlm key).tryCatch reconnectFailed)).2 := by
  unfold restoreKey
  cases given : key.filter (· ≠ "") with
  | none => exact ⟨.absent .addressing (.inr rfl) rfl, .done⟩
  | some key =>
    refine ⟨.restored key ?_ rfl, ?_⟩
    · simpa using (Option.filter_eq_some_iff.mp given).2
    · refine loading_staged fun c s answer => ?_
      cases answer <;> exact ⟨_, rfl⟩

theorem reconnectInstalled_staged (s : WalletState) (installed : Bool) :
    Turn false s .probing
        (settle false s ((reconnectInstalled formatXlm installed).tryCatch reconnectFailed)).1
        (stageOf true (settle false s ((reconnectInstalled formatXlm installed).tryCatch reconnectFailed)).2) ∧
      Staged true (settle false s ((reconnectInstalled formatXlm installed).tryCatch reconnectFailed)).2 := by
  cases installed with
  | false => exact ⟨.absent .probing (.inl rfl) rfl, .done⟩
  | true =>
    refine ⟨.found rfl, .await (fun c s answer => ?_) fun c s answer => ?_⟩
    · cases c with
      | true => cases answer <;> exact .dropped .addressing (.inr rfl) rfl
      | false =>
        cases answer with
        | error thrown => exact .absent .addressing (.inr rfl) rfl
        | ok result => exact (restoreKey_staged formatXlm s (addressKey result)).1
    · cases c with
      | true => cases answer <;> exact .done
      | false =>
        cases answer with
        | error thrown => exact .done
        | ok result => exact (restoreKey_staged formatXlm s (addressKey result)).2

theorem reconnect_staged : Staged true (settle cancelled s (reconnect formatXlm)).2 := by
  refine .await (fun c s answer => ?_) fun c s answer => ?_
  · cases c with
    | true => cases answer <;> exact .dropped .probing (.inl rfl) rfl
    | false =>
      cases answer with
      | error thrown => exact .absent .probing (.inl rfl) rfl
      | ok result => exact (reconnectInstalled_staged formatXlm s result.installed).1
  · cases c with
    | true => cases answer <;> exact .done
    | false =>
      cases answer with
      | error thrown => exact .done
      | ok result => exact (reconnectInstalled_staged formatXlm s result.installed).2

end Wallet

/-! ### The page -/

open Wallet

namespace WalletPage
variable {formatXlm : String → String} {page page' : WalletPage} {event : Event}
  {trace : List (WalletPage × Event)}

/-- Every script on the page is at one of its stages. -/
def Sound (page : WalletPage) : Prop := ∀ task ∈ page.pending, Staged task.effectOf.isSome task.rest

theorem cleanUp_rest (index : Nat) (task : Pending) :
    (task.cleanUp index).rest = task.rest ∧ (task.cleanUp index).effectOf = task.effectOf := by
  unfold Pending.cleanUp
  split <;> exact ⟨rfl, rfl⟩

theorem cleanUp_sound (page : WalletPage) (index : Nat) (sound : page.Sound) : (page.cleanUp index).Sound := by
  intro task member
  obtain ⟨before, there, rfl⟩ := List.mem_map.mp member
  rw [(cleanUp_rest index before).1, (cleanUp_rest index before).2]
  exact sound before there

theorem start_sound (page : WalletPage) {effectOf : Option Nat} {script : Script Unit} (sound : page.Sound)
    (staged : Staged effectOf.isSome (settle false page.store script).2) : (page.start effectOf script).Sound := by
  intro task member
  rcases List.mem_append.mp member with earlier | new
  · exact sound task earlier
  · obtain rfl := List.mem_singleton.mp new
    exact staged

variable (formatXlm) in
theorem runEffect_sound (page : WalletPage) (index : Nat) (status : WalletStatus) (sound : page.Sound) :
    (page.runEffect formatXlm index status).Sound := by
  unfold WalletPage.runEffect
  split
  · exact start_sound page sound (reconnect_staged formatXlm)
  · exact sound

theorem Step.sound (step : Step formatXlm page event page') (sound : page.Sound) : page'.Sound := by
  cases step with
  | mount surface => exact runEffect_sound _ _ _ _ sound
  | unmount found => exact cleanUp_sound page _ sound
  | rendered found same => exact sound
  | rerun found changed => exact runEffect_sound _ _ _ _ (cleanUp_sound _ _ sound)
  | @click _ _ _ control found offered =>
    cases control with
    | connect => exact start_sound page sound (connect_staged formatXlm)
    | disconnect => exact sound
    | refresh => exact start_sound page sound refreshBalance_staged
  | answered found fits =>
    intro task member
    rcases List.mem_or_eq_of_mem_set member with earlier | rfl
    · exact sound task earlier
    · cases sound _ (List.mem_of_getElem? found) with
      | await turns rests => exact rests _ _ _

/-- What an answer does to a sound page. -/
theorem Sound.turn {index : Nat} {effectOf : Option Nat} {cancelled : Bool} {op : Op}
    {next : Except Thrown op.Answer → Script Unit} (sound : page.Sound)
    (found : page.pending[index]? = some ⟨effectOf, cancelled, .await op next⟩)
    (answer : Except Thrown op.Answer) :
    Turn cancelled page.store (stageOf effectOf.isSome (.await op next))
      (settle cancelled page.store (next answer)).1
      (stageOf effectOf.isSome (settle cancelled page.store (next answer)).2) := by
  cases sound _ (List.mem_of_getElem? found) with
  | await turns rests => exact turns _ _ _

/-! ### The silent reconnection -/

/-- The component is there, and was last rendered before the wallet was looked for. -/
def Waiting (page : WalletPage) (index : Nat) : Prop :=
  ∃ surface seen, page.components[index]? = some ⟨surface, seen, true⟩ ∧ seen.status = .idle

/-- An effect that has not connected anything, live only while its component waits. -/
structure Quiet (page : WalletPage) (task : Pending) : Prop where
  ofEffect : task.effectOf.isSome = true
  early : task.stage = .probing ∨ task.stage = .addressing ∧ (task.cancelled = true ∨ page.store.status ≠ .idle) ∨
    task.stage = .finished
  live : task.cancelled = false → ∀ index, task.effectOf = some index → page.Waiting index

/-- Nobody has asked for a connection. -/
structure Unasked (page : WalletPage) : Prop where
  sound : page.Sound
  noKey : page.store.publicKey = none
  status : page.store.status ≠ .connected
  quiet : ∀ task ∈ page.pending, page.Quiet task

theorem offers_unconnected {s : WalletState} {surface : Surface} {control : Control}
    (status : s.status ≠ .connected) (offered : control ∈ surface.offers s) : control = .connect := by
  cases surface with
  | walletConnect =>
    simp only [Surface.offers, status, false_and, if_false] at offered
    split at offered
    · contradiction
    · split at offered
      · contradiction
      · exact List.mem_singleton.mp offered
  | walletBalance => simp [Surface.offers, status] at offered
  | applySection => simpa [Surface.offers, status] using offered

/-- An effect that starts is quiet. -/
theorem runEffect_unasked (page : WalletPage) {index : Nat} (unasked : page.Unasked)
    (waiting : page.store.status = .idle → page.Waiting index) :
    (page.runEffect formatXlm index page.store.status).Unasked := by
  have sound := runEffect_sound formatXlm page index page.store.status unasked.sound
  unfold WalletPage.runEffect at sound ⊢
  split
  · rename_i idle
    rw [if_pos idle] at sound
    refine ⟨sound, unasked.noKey, unasked.status, fun task member => ?_⟩
    rcases List.mem_append.mp member with earlier | new
    · exact ⟨(unasked.quiet task earlier).ofEffect, (unasked.quiet task earlier).early,
        (unasked.quiet task earlier).live⟩
    · obtain rfl := List.mem_singleton.mp new
      refine ⟨rfl, .inl rfl, fun _ other same => ?_⟩
      cases same
      exact waiting idle
  · exact unasked

/-- Effects whose components wait as before stay quiet. -/
theorem Quiet.frame {task : Pending} (quiet : page.Quiet task)
    (status : page.store.status ≠ .idle → page'.store.status ≠ .idle)
    (waiting : ∀ index, task.cancelled = false → task.effectOf = some index → page.Waiting index →
      page'.Waiting index) : page'.Quiet task := by
  refine ⟨quiet.ofEffect, ?_, fun live index same => waiting index live same (quiet.live live index same)⟩
  rcases quiet.early with probing | ⟨addressing, cancelled | moved⟩ | finished
  · exact .inl probing
  · exact .inr (.inl ⟨addressing, .inl cancelled⟩)
  · exact .inr (.inl ⟨addressing, .inr (status moved)⟩)
  · exact .inr (.inr finished)

/-- The cleanup of a component, where the others wait as before. -/
theorem cleanUp_quiet {index : Nat} (unasked : page.Unasked) (same : page'.store = page.store)
    (others : ∀ other ≠ index, page.Waiting other → page'.Waiting other) :
    ∀ task ∈ (page.cleanUp index).pending, page'.Quiet task := by
  intro task member
  obtain ⟨before, there, rfl⟩ := List.mem_map.mp member
  have quiet := unasked.quiet before there
  unfold Pending.cleanUp
  split
  · refine ⟨quiet.ofEffect, ?_, nofun⟩
    rcases quiet.early with probing | ⟨addressing, _⟩ | finished
    · exact .inl probing
    · exact .inr (.inl ⟨addressing, .inl rfl⟩)
    · exact .inr (.inr finished)
  · rename_i another
    refine quiet.frame (same ▸ id) fun other _ own => others other ?_
    rintro rfl
    exact another own

theorem Waiting.other {index other : Nat} {component : Component} (waiting : page.Waiting other)
    (another : other ≠ index) (set : page'.components = page.components.set index component) :
    page'.Waiting other := by
  obtain ⟨surface, seen, found, idle⟩ := waiting
  refine ⟨surface, seen, ?_, idle⟩
  rw [set, ← found]
  exact List.getElem?_set_ne (Ne.symm another)

theorem turn_unasked {cancelled : Bool} {s store : WalletState} {stage stage' : Stage}
    (turn : Turn cancelled s stage store stage') (idle : cancelled = false → s.status = .idle)
    (early : stage = .probing ∨ stage = .addressing ∧ (cancelled = true ∨ s.status ≠ .idle) ∨ stage = .finished)
    (noKey : s.publicKey = none) (status : s.status ≠ .connected) :
    (s.status ≠ .idle → store = s) ∧ store.publicKey = none ∧ store.status ≠ .connected ∧
      (stage' = .addressing ∧ store.status ≠ .idle ∨ stage' = .finished) := by
  cases turn with
  | found live => exact ⟨fun moved => absurd (idle live) moved, noKey, nofun, .inl ⟨rfl, nofun⟩⟩
  | dropped => exact ⟨fun _ => rfl, noKey, status, .inr rfl⟩
  | absent _ reconnects live => exact ⟨fun moved => absurd (idle live) moved, noKey, nofun, .inr rfl⟩
  | restored key given live =>
    rcases early with contra | ⟨_, dead | moved⟩ | contra
    · contradiction
    · exact absurd (dead.symm.trans live) (by decide)
    · exact absurd (idle live) moved
    · contradiction
  | installed | notFound | granted | loaded => simp at early
  | failed stage message asks => rcases asks with rfl | rfl <;> simp at early

/-- An answer moves the store only where a component has not seen the status move. -/
theorem Unasked.answered {index : Nat} {effectOf : Option Nat} {cancelled : Bool} {op : Op}
    {next : Except Thrown op.Answer → Script Unit} {answer : Except Thrown op.Answer}
    (unasked : page.Unasked) (rendered : page.Rendered)
    (found : page.pending[index]? = some ⟨effectOf, cancelled, .await op next⟩)
    (page' : WalletPage) (sound : page'.Sound) (components : page'.components = page.components)
    (store : page'.store = (settle cancelled page.store (next answer)).1)
    (pending : page'.pending =
      page.pending.set index ⟨effectOf, cancelled, (settle cancelled page.store (next answer)).2⟩) :
    page'.Unasked ∧ (page.store.status ≠ .idle → page'.store = page.store) := by
  have turn := unasked.sound.turn found answer
  have quiet := unasked.quiet _ (List.mem_of_getElem? found)
  have idle : cancelled = false → page.store.status = .idle := by
    rintro rfl
    obtain ⟨component, own⟩ := Option.isSome_iff_exists.mp quiet.ofEffect
    obtain ⟨surface, seen, there, idle⟩ := quiet.live rfl component own
    have same : seen = page.store := rendered _ (List.mem_of_getElem? there) rfl
    exact same ▸ idle
  obtain ⟨kept, noKey, status, after⟩ := turn_unasked turn idle quiet.early unasked.noKey unasked.status
  rw [← store] at kept noKey status after
  have waiting : ∀ other, page.Waiting other → page'.Waiting other := by
    rintro other ⟨surface, seen, there, idle⟩
    exact ⟨surface, seen, components ▸ there, idle⟩
  refine ⟨⟨sound, noKey, status, fun task member => ?_⟩, kept⟩
  rw [pending] at member
  rcases List.mem_or_eq_of_mem_set member with earlier | rfl
  · exact (unasked.quiet task earlier).frame (fun moved => kept moved ▸ moved) fun other _ _ => waiting other
  · refine ⟨quiet.ofEffect, ?_, fun live other own => waiting other (quiet.live live other own)⟩
    rcases after with ⟨addressing, moved⟩ | finished
    · exact .inr (.inl ⟨addressing, .inr moved⟩)
    · exact .inr (.inr finished)

/-- An effect starts without a write to the store. -/
theorem runEffect_store (page : WalletPage) (index : Nat) (status : WalletStatus) :
    (page.runEffect formatXlm index status).store = page.store := by
  unfold WalletPage.runEffect
  split <;> rfl

theorem Step.unasked (step : Step formatXlm page event page') (prompt : page.Prompt event)
    (unclicked : ∀ index, event ≠ .click index .connect) (unasked : page.Unasked) :
    page'.Unasked ∧ (page.store.status ≠ .idle → page'.store = page.store) := by
  have sound := step.sound unasked.sound
  cases step with
  | mount surface =>
    refine ⟨runEffect_unasked _ ⟨unasked.sound, unasked.noKey, unasked.status, ?_⟩ ?_, fun _ => runEffect_store _ _ _⟩
    · refine fun task member => (unasked.quiet task member).frame id fun other _ _ waiting => ?_
      obtain ⟨surface, seen, found, idle⟩ := waiting
      exact ⟨surface, seen, Runs.still_at found, idle⟩
    · exact fun idle => ⟨surface, page.store, List.getElem?_concat_length, idle⟩
  | unmount found =>
    refine ⟨⟨sound, unasked.noKey, unasked.status, ?_⟩, fun _ => rfl⟩
    exact cleanUp_quiet unasked rfl fun other another waiting => waiting.other another rfl
  | @rendered index surface seen found same =>
    refine ⟨⟨sound, unasked.noKey, unasked.status, fun task member => ?_⟩, fun _ => rfl⟩
    refine (unasked.quiet task member).frame id fun other _ _ waiting => ?_
    by_cases here : other = index
    · subst here
      obtain ⟨_, before, there, idle⟩ := waiting
      cases found.symm.trans there
      refine ⟨surface, page.store, ?_, same ▸ idle⟩
      exact List.getElem?_set_self (List.getElem?_eq_some_iff.mp found).1
    · exact waiting.other here rfl
  | @rerun index surface seen found changed =>
    refine ⟨runEffect_unasked _ ⟨cleanUp_sound _ _ unasked.sound, unasked.noKey, unasked.status, ?_⟩ ?_,
      fun _ => runEffect_store _ _ _⟩
    · have quiet : ∀ task ∈ (page.cleanUp index).pending, Quiet (cleanUp { page with
          components := page.components.set index ⟨surface, page.store, true⟩ } index) task :=
        cleanUp_quiet unasked rfl fun other another waiting => waiting.other another rfl
      exact quiet
    · intro idle
      refine ⟨surface, page.store, ?_, idle⟩
      exact List.getElem?_set_self (List.getElem?_eq_some_iff.mp found).1
  | click found offered =>
    have same := prompt _ (List.mem_of_getElem? found) rfl
    dsimp only at same
    rw [same] at offered
    obtain rfl := offers_unconnected unasked.status offered
    exact absurd rfl (unclicked _)
  | answered found fits => exact unasked.answered prompt found _ sound rfl rfl rfl

theorem initial_unasked : initial.Unasked := ⟨nofun, rfl, nofun, nofun⟩

/-- Where nobody clicks on a connection, nothing is connected: whatever the extension answers, the
silent reconnection gets as far as `checking`, and the page stays there without a control that
leads out. -/
theorem silent_reconnection_stalls (run : Runs.Run (Step formatXlm) initial trace page)
    (prompt : ∀ point ∈ trace, point.1.Prompt point.2)
    (unclicked : ∀ point ∈ trace, ∀ index, point.2 ≠ .click index .connect) :
    page.store.publicKey = none ∧ page.store.status ≠ .connected ∧
      ∀ point ∈ trace, point.1.store.status = .checking →
        page.store = point.1.store ∧ Surface.walletConnect.offers page.store = [] := by
  suffices both : page.Unasked ∧ ∀ point ∈ trace, point.1.store.status = .checking → page.store = point.1.store by
    refine ⟨both.1.noKey, both.1.status, fun point member checking => ⟨both.2 point member checking, ?_⟩⟩
    rw [both.2 point member checking]
    exact if_pos checking
  induction run with
  | refl => exact ⟨initial_unasked, fun _ member => absurd member List.not_mem_nil⟩
  | @tail trace t event u run step ih =>
    obtain ⟨unasked, still⟩ := ih (fun point member => prompt point (List.mem_append_left _ member))
      fun point member => unclicked point (List.mem_append_left _ member)
    have last : (t, event) ∈ trace ++ [(t, event)] := List.mem_append_right _ List.mem_cons_self
    obtain ⟨after, kept⟩ := step.unasked (prompt _ last) (unclicked _ last) unasked
    refine ⟨after, fun point member checking => ?_⟩
    have busy : ∀ {s : WalletState}, s.status = .checking → s.status ≠ .idle := fun checking => by simp [checking]
    rcases List.mem_append.mp member with earlier | last
    · have same := still point earlier checking
      exact (kept (same ▸ busy checking)).trans same
    · obtain rfl := List.mem_singleton.mp last
      exact kept (busy checking)

theorem rendered_one {page : WalletPage} {surface : Surface}
    (one : page.components = [⟨surface, page.store, true⟩]) : page.Rendered := by
  intro component member _
  rw [one] at member
  obtain rfl := List.mem_singleton.mp member
  rfl

theorem silent_reconnection_stalls_sample : ∃ trace page, Runs.Run (Step id) initial trace page ∧
    (page.store.publicKey = none ∧ page.store.status ≠ .connected ∧
      ∀ point ∈ trace, point.1.store.status = .checking →
        page.store = point.1.store ∧ Surface.walletConnect.offers page.store = []) ∧
    page.store.status = .checking := by
  have r1 : Runs.Run (Step id) initial _ _ := .tail .refl (.mount .walletConnect)
  have r2 := r1.tail (@Step.answered id _ 0 _ _ _ _ (.connection (.ok (.flag true))) _ rfl rfl)
  have r3 := r2.tail (@Step.rerun id _ 0 .walletConnect _ rfl (by decide))
  have r4 := r3.tail (@Step.answered id _ 0 _ _ _ _ (.address (.ok (.text "GA"))) _ rfl rfl)
  refine ⟨_, _, r4, silent_reconnection_stalls r4 ?_ ?_, rfl⟩
  · intro point member
    simp only [List.nil_append, List.cons_append, List.mem_cons, List.not_mem_nil, or_false] at member
    rcases member with rfl | rfl | rfl | rfl
    · trivial
    · exact rendered_one rfl
    · trivial
    · exact rendered_one rfl
  · intro point member
    simp only [List.nil_append, List.cons_append, List.mem_cons, List.not_mem_nil, or_false] at member
    rcases member with rfl | rfl | rfl | rfl <;> exact nofun

/-! ### Keys and balances -/

/-- The balance of a key comes back. -/
def fetches (page : WalletPage) : Event → Option String
  | .answered index _ => (page.pending[index]?).bind fun task => task.stage.key
  | .mount _ | .unmount _ | .render _ | .click .. => none

/-- The account of the last balance that came back. -/
def fetchedFor (trace : List (WalletPage × Event)) : Option String :=
  (trace.filterMap fun point => point.1.fetches point.2).getLast?

/-- The balance of one account comes back while another is connected. -/
def Overtaken (page : WalletPage) (event : Event) : Prop :=
  ∃ key, page.fetches event = some key ∧ page.store.status = .connected ∧ page.store.publicKey ≠ some key

end WalletPage

/-- The balance that is shown is that of the connected account, where it was last asked for `key`. -/
def WalletState.ShowsOwn (s : WalletState) (key : Option String) : Prop :=
  s.status = .connected → s.isLoadingBalance = false → s.balance.isSome = true → s.publicKey = key

/-- What is connected is an account, and what is loading is under way. -/
structure WalletPage.Consistent (page : WalletPage) : Prop where
  keyed : page.store.status = .connected → ∃ key, key ≠ "" ∧ page.store.publicKey = some key
  loads : page.store.isLoadingBalance = true → ∃ task ∈ page.pending, ∃ key, task.stage = .loading key

namespace WalletPage
variable {formatXlm : String → String} {page page' : WalletPage} {event : Event}
  {trace : List (WalletPage × Event)}

/-- What a step does to the store: nothing, the first writes of a click, or a turn of a script. -/
inductive Writes (page : WalletPage) (event : Event) (page' : WalletPage) : Prop where
  | none (fetches : page.fetches event = none) (same : page'.store = page.store)
  | connect (fetches : page.fetches event = none) (store : page'.store = (page.store.setStatus .checking).setError none)
  | disconnect (fetches : page.fetches event = none) (store : page'.store = page.store.disconnect)
  | refresh (fetches : page.fetches event = none) (store : page'.store = page.store.setLoadingBalance true)
  | turn {cancelled : Bool} {stage stage' : Stage} (turn : Turn cancelled page.store stage page'.store stage')
      (fetches : page.fetches event = stage.key)

theorem Step.writes (step : Step formatXlm page event page') (sound : page.Sound) : page.Writes event page' := by
  cases step with
  | mount surface => exact .none rfl (runEffect_store _ _ _)
  | unmount | rendered => exact .none rfl rfl
  | rerun => exact .none rfl (runEffect_store _ _ _)
  | @click _ _ seen control found offered =>
    cases control with
    | connect => exact .connect rfl rfl
    | disconnect => exact .disconnect rfl rfl
    | refresh =>
      cases given : seen.publicKey.filter (· ≠ "") with
      | none =>
        refine .none rfl ?_
        simp only [press, WalletPage.start, refreshBalance, given]
        rfl
      | some key =>
        refine .refresh rfl ?_
        simp only [press, WalletPage.start, refreshBalance, given]
        rfl
  | answered found fits =>
    refine .turn (sound.turn found _) ?_
    simp only [WalletPage.fetches, found, Option.bind_some, Pending.stage]

theorem turn_outcome {cancelled : Bool} {s store : WalletState} {stage stage' : Stage}
    (turn : Turn cancelled s stage store stage') :
    (∃ key balance, stage = .loading key ∧ store = s.loaded balance) ∨
    stage.key = none ∧ (store = s ∨ store.status ≠ .connected ∨ store.isLoadingBalance = true) := by
  cases turn with
  | loaded key balance => exact .inl ⟨key, balance, rfl, rfl⟩
  | installed => exact .inr ⟨rfl, .inl rfl⟩
  | notFound | found => exact .inr ⟨rfl, .inr (.inl nofun)⟩
  | granted | restored => exact .inr ⟨rfl, .inr (.inr rfl)⟩
  | failed stage message asks =>
    rcases asks with rfl | rfl <;> exact .inr ⟨rfl, .inr (.inl nofun)⟩
  | dropped stage reconnects => rcases reconnects with rfl | rfl <;> exact .inr ⟨rfl, .inl rfl⟩
  | absent stage reconnects =>
    rcases reconnects with rfl | rfl <;> exact .inr ⟨rfl, .inr (.inl nofun)⟩

/-- The balance of an account is shown as another's from exactly then on that one overtakes it. -/
theorem Step.showsOwn {key : Option String} (step : Step formatXlm page event page') (sound : page.Sound)
    (own : page.store.ShowsOwn key) :
    page'.store.ShowsOwn ((page.fetches event).or key) ↔ ¬ page.Overtaken event := by
  have harmless : page.fetches event = none → ¬ page.Overtaken event := by
    rintro none ⟨_, fetches, _⟩
    rw [none] at fetches
    contradiction
  cases step.writes sound with
  | none fetches same =>
    rw [fetches, same]
    exact iff_of_true own (harmless fetches)
  | connect fetches store =>
    rw [store]
    exact iff_of_true nofun (harmless fetches)
  | disconnect fetches store =>
    rw [store]
    exact iff_of_true nofun (harmless fetches)
  | refresh fetches store =>
    rw [store]
    exact iff_of_true (fun _ => nofun) (harmless fetches)
  | @turn cancelled stage stage' turn fetches =>
    rcases turn_outcome turn with ⟨key, balance, rfl, store⟩ | ⟨unfetched, kept | quiet | loading⟩
    · have fetches : page.fetches event = some key := fetches
      rw [fetches, store]
      constructor
      · rintro shows ⟨_, fetched, connected, other⟩
        obtain rfl := Option.some.inj (fetches.symm.trans fetched)
        exact other (shows connected rfl rfl)
      · intro timely connected _ _
        by_contra other
        exact timely ⟨key, fetches, connected, other⟩
    · rw [fetches, unfetched, kept]
      exact iff_of_true own (harmless (fetches.trans unfetched))
    · exact iff_of_true (fun connected => absurd connected quiet) (harmless (fetches.trans unfetched))
    · refine iff_of_true (fun _ settled => ?_) (harmless (fetches.trans unfetched))
      rw [loading] at settled
      contradiction

theorem fetchedFor_step (trace : List (WalletPage × Event)) (page : WalletPage) (event : Event) :
    fetchedFor (trace ++ [(page, event)]) = (page.fetches event).or (fetchedFor trace) := by
  unfold fetchedFor
  rw [List.filterMap_append]
  cases fetched : page.fetches event with
  | none => simp [fetched]
  | some key => simp [fetched]

/-- The balance on the page is that of the connected account throughout exactly the runs in which
no balance comes back for one account while another is connected. -/
theorem balance_own_iff (run : Runs.Run (Step formatXlm) initial trace page) :
    (∀ earlier rest u, trace = earlier ++ rest → Runs.Run (Step formatXlm) initial earlier u →
      Runs.Run (Step formatXlm) u rest page → u.store.ShowsOwn (fetchedFor earlier)) ↔
      ∀ point ∈ trace, ¬ point.1.Overtaken point.2 := by
  have nothing : initial.Sound := nofun
  refine run.always_iff (fun trace u => u.store.ShowsOwn (fetchedFor trace)) nothing nofun ?_
  intro trace s event t sound own step
  rw [fetchedFor_step]
  exact ⟨step.sound sound, step.showsOwn sound own⟩

theorem balance_own_iff_sample : ∃ trace page, Runs.Run (Step id) initial trace page ∧
    ((∀ earlier rest u, trace = earlier ++ rest → Runs.Run (Step id) initial earlier u →
      Runs.Run (Step id) u rest page → u.store.ShowsOwn (fetchedFor earlier)) ↔
      ∀ point ∈ trace, ¬ point.1.Overtaken point.2) ∧
    ∃ point ∈ trace, point.1.Overtaken point.2 := by
  have r1 : Runs.Run (Step id) initial _ _ := .tail .refl (.mount .walletConnect)
  have r2 := r1.tail (@Step.click id _ 0 .walletConnect _ .connect rfl (by decide))
  have r3 := r2.tail (@Step.answered id _ 1 _ _ _ _ (.connection (.ok (.flag true))) _ rfl rfl)
  have r4 := r3.tail (@Step.answered id _ 1 _ _ _ _ (.address (.ok (.text "GA"))) _ rfl rfl)
  have r5 := r4.tail (@Step.rerun id _ 0 .walletConnect _ rfl (by decide))
  have r6 := r5.tail (@Step.click id _ 0 .walletConnect _ .disconnect rfl (by decide))
  have r7 := r6.tail (@Step.rerun id _ 0 .walletConnect _ rfl (by decide))
  have r8 := r7.tail (@Step.click id _ 0 .walletConnect _ .connect rfl (by decide))
  have r9 := r8.tail (@Step.answered id _ 2 _ _ _ _ (.connection (.ok (.flag true))) _ rfl rfl)
  have r10 := r9.tail (@Step.answered id _ 2 _ _ _ _ (.address (.ok (.text "GB"))) _ rfl rfl)
  have r11 := r10.tail (@Step.answered id _ 1 _ _ _ _ (.account (.ok [.native "5"])) _ rfl rfl)
  refine ⟨_, _, r11, balance_own_iff r11, _, List.mem_append_right _ List.mem_cons_self, "GA", rfl, rfl, by decide⟩

theorem turn_keyed {cancelled : Bool} {s store : WalletState} {stage stage' : Stage}
    (turn : Turn cancelled s stage store stage') (connected : store.status = .connected) :
    s.status = .connected ∧ store.publicKey = s.publicKey ∨ ∃ key, key ≠ "" ∧ store.publicKey = some key := by
  cases turn with
  | installed | dropped | loaded => exact .inl ⟨connected, rfl⟩
  | granted key given | restored key given => exact .inr ⟨key, given, rfl⟩
  | notFound | failed | found | absent => contradiction

theorem turn_loads {cancelled : Bool} {s store : WalletState} {stage stage' : Stage}
    (turn : Turn cancelled s stage store stage') (loading : store.isLoadingBalance = true) :
    (∃ key, stage' = .loading key) ∨ s.isLoadingBalance = true ∧ stage.key = none := by
  cases turn with
  | granted key | restored key => exact .inl ⟨key, rfl⟩
  | loaded => contradiction
  | installed | notFound | found => exact .inr ⟨loading, rfl⟩
  | failed stage message asks => rcases asks with rfl | rfl <;> exact .inr ⟨loading, rfl⟩
  | dropped stage reconnects | absent stage reconnects =>
    rcases reconnects with rfl | rfl <;> exact .inr ⟨loading, rfl⟩

theorem Step.keyed (step : Step formatXlm page event page') (sound : page.Sound)
    (keyed : page.store.status = .connected → ∃ key, key ≠ "" ∧ page.store.publicKey = some key)
    (connected : page'.store.status = .connected) : ∃ key, key ≠ "" ∧ page'.store.publicKey = some key := by
  cases step.writes sound with
  | none _ same => exact same ▸ keyed (same ▸ connected)
  | connect _ store | disconnect _ store =>
    rw [store] at connected
    contradiction
  | refresh _ store =>
    rw [store] at connected ⊢
    exact keyed connected
  | turn turn =>
    rcases turn_keyed turn connected with ⟨before, same⟩ | given
    · rw [same]
      exact keyed before
    · exact given

/-- A balance is loading. -/
def Loads (tasks : List Pending) : Prop := ∃ task ∈ tasks, ∃ key, task.stage = .loading key

theorem Loads.append {tasks : List Pending} (loads : Loads tasks) (more : List Pending) :
    Loads (tasks ++ more) := by
  obtain ⟨task, member, loading⟩ := loads
  exact ⟨task, List.mem_append_left _ member, loading⟩

theorem Loads.cleanUp (loads : Loads page.pending) (index : Nat) : Loads (page.cleanUp index).pending := by
  obtain ⟨task, member, key, loading⟩ := loads
  refine ⟨_, List.mem_map_of_mem member, key, ?_⟩
  rw [Pending.stage, (cleanUp_rest index task).1, (cleanUp_rest index task).2]
  exact loading

theorem loads_runEffect (page : WalletPage) (loads : Loads page.pending) (index : Nat) (status : WalletStatus) :
    Loads (page.runEffect formatXlm index status).pending := by
  unfold WalletPage.runEffect
  split
  · exact loads.append _
  · exact loads

theorem Step.loads (step : Step formatXlm page event page') (sound : page.Sound)
    (loads : page.store.isLoadingBalance = true → Loads page.pending)
    (loading : page'.store.isLoadingBalance = true) : Loads page'.pending := by
  cases step with
  | mount surface =>
    rw [runEffect_store] at loading
    refine loads_runEffect _ ?_ _ _
    exact loads loading
  | unmount => exact (loads loading).cleanUp _
  | rendered => exact loads loading
  | rerun =>
    rw [runEffect_store] at loading
    refine loads_runEffect _ ?_ _ _
    exact (loads loading).cleanUp _
  | @click _ _ seen control =>
    cases control with
    | connect => exact (loads loading).append _
    | disconnect => contradiction
    | refresh =>
      cases given : seen.publicKey.filter (· ≠ "") with
      | none =>
        refine Loads.append (loads ?_) _
        simp only [press, WalletPage.start, refreshBalance, given] at loading
        exact loading
      | some key =>
        refine ⟨_, List.mem_append_right _ List.mem_cons_self, key, ?_⟩
        simp only [Pending.stage, refreshBalance, given]
        rfl
  | @answered index effectOf cancelled op next _ answer found fits =>
    have new : Pending.mk effectOf cancelled (settle cancelled page.store (next answer)).2 ∈
        page.pending.set index ⟨effectOf, cancelled, (settle cancelled page.store (next answer)).2⟩ :=
      List.mem_set (List.getElem?_eq_some_iff.mp found).1 _
    rcases turn_loads (sound.turn found answer) loading with ⟨key, opened⟩ | ⟨before, other⟩
    · exact ⟨_, new, key, opened⟩
    · obtain ⟨task, member, key, under⟩ := loads before
      refine ⟨task, Process.mem_replaced found member ?_ _, key, under⟩
      rintro rfl
      rw [Pending.stage] at under
      rw [under] at other
      contradiction

/-- In every run, what is connected is an account with a key, and what is loading is under way. -/
theorem wallet_consistent (run : Runs.Run (Step formatXlm) initial trace page) : page.Consistent := by
  have all : page.Sound ∧ page.Consistent := by
    refine Runs.Run.invariant (I := fun page => page.Sound ∧ page.Consistent) ?_ run ⟨nofun, nofun, nofun⟩
    rintro s event t ⟨sound, consistent⟩ step
    exact ⟨step.sound sound, step.keyed sound consistent.keyed, step.loads sound consistent.loads⟩
  exact all.2

theorem wallet_consistent_sample : ∃ trace page, Runs.Run (Step id) initial trace page ∧ page.Consistent ∧
    page.store.status = .connected ∧ page.store.isLoadingBalance = true := by
  have r1 : Runs.Run (Step id) initial _ _ := .tail .refl (.mount .walletConnect)
  have r2 := r1.tail (@Step.click id _ 0 .walletConnect _ .connect rfl (by decide))
  have r3 := r2.tail (@Step.answered id _ 1 _ _ _ _ (.connection (.ok (.flag true))) _ rfl rfl)
  have r4 := r3.tail (@Step.answered id _ 1 _ _ _ _ (.address (.ok (.text "GA"))) _ rfl rfl)
  exact ⟨_, _, r4, wallet_consistent r4, rfl, rfl⟩

end WalletPage
end Stellance.Frontend
