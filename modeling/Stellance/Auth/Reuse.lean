import Stellance.Library.Serial
import Stellance.Auth.Versions

/-! A token that was rotated is presented again. Its row is revoked in favour of another for
ever after, whatever logouts came since, so the refresh takes the branch that logs its owner
out everywhere. -/
namespace Stellance.Auth
open AuthService
open Process hiding await
open Backend (Uuid UserRole)

/-! ### A logout from everywhere, on the tables -/

/-- The tables after both statements of a logout from everywhere. -/
def Db.logOutAll (db : Db) (userId : Uuid) : Db :=
  Db.revokeMany { db with users := db.users.modify userId User.logOut User.logOut_id }
    (·.userId = userId) none

/-- The owner is logged out once more and has no token left that is not revoked; nothing is
issued, and nobody else is touched. -/
structure World.LogsOut (before : World) (owner : Uuid) (after : World) : Prop where
  raised : ∃ user, before.db.users.find owner = some user ∧
    after.db.users.find owner = some { user with tokenVersion := user.tokenVersion + 1 }
  others : ∀ id ≠ owner, after.db.users.find id = before.db.users.find id
  signed : after.signed = before.signed
  ids : after.db.refreshTokens.rows.map RefreshToken.id = before.db.refreshTokens.rows.map RefreshToken.id
  revoked : ∀ row ∈ after.db.refreshTokens.rows, row.userId = owner → row.revoked = true
  kept : ∀ id row, before.db.refreshTokens.find id = some row → row.userId ≠ owner →
    after.db.refreshTokens.find id = some row

section Tables
variable {argon2 : String → String → Bool} {db : Db} {w w' : World} {owner : Uuid} {user : User}

theorem serves_faults {faults : Prop} {op : Op} {answer : Except Failure op.Answer}
    (served : Serves argon2 False w op answer w') : Serves argon2 faults w op answer w' := by
  cases served with
  | executed executed => exact .executed executed
  | verified => exact .verified _ _
  | hashed verifies => exact .hashed verifies
  | now => exact .now
  | random some' => exact .random some'
  | signed => exact .signed _ _
  | accepted genuine fresh => exact .accepted genuine fresh
  | rejected invalid => exact .rejected invalid
  | faulted fault => exact fault.elim

theorem logOutAll_row (db : Db) (owner key : Uuid) : (db.logOutAll owner).refreshTokens.find key =
    (db.refreshTokens.find key).map fun row =>
      if row.userId = owner ∧ row.revoked = false then row.revoke none else row := by
  rw [Db.logOutAll, Db.revokeMany_find]
  simp only [decide_eq_true_eq]

theorem logsOut_logOutAll (known : w.db.users.find owner = some user) :
    w.LogsOut owner { w with db := w.db.logOutAll owner } where
  raised := ⟨user, known, Table.find_modify_self User.logOut_id known⟩
  others id other := Table.find_modify_other User.logOut_id other
  signed := rfl
  ids := Db.revokeMany_ids
  revoked := by
    intro row member own
    have found := Table.find_of_mem member
    rw [logOutAll_row] at found
    obtain ⟨before, _, same⟩ := Option.map_eq_some_iff.mp found
    split at same
    · rw [← same]
      rfl
    · rename_i kept
      rw [← same] at own ⊢
      simpa [own] using kept
  kept := by
    intro id row found other
    rw [logOutAll_row, found, Option.map_some, if_neg (fun both => other both.1)]

/-- Both statements of a logout go through for a user that is there. -/
theorem logoutAll_completes (known : w.db.users.find owner = some user) {result : Except Failure Unit} :
    Process.Completes (Serves argon2 False) w (logoutAll owner) result w' ↔
      result = .ok () ∧ w' = { w with db := w.db.logOutAll owner } := by
  have raised : w.db.incrementTokenVersion owner =
      some { w.db with users := w.db.users.modify owner User.logOut User.logOut_id } := by
    rw [Db.incrementTokenVersion, if_pos (by rw [known]; rfl)]
  unfold logoutAll
  constructor
  · intro completes
    rcases completes_bind.mp completes with ⟨e, rfl, failed⟩ | ⟨_, between, first, second⟩
    · cases completes_perform.mp failed with
      | executed executed =>
        obtain ⟨absent, _⟩ := executes_noUser executed
        exact absurd (known.symm.trans absent) (Option.some_ne_none user)
      | faulted fault => exact fault.elim
    · cases completes_perform.mp first with
      | executed executed =>
        cases executed with
        | incremented incremented =>
          obtain rfl := Option.some.inj (incremented.symm.trans raised)
          cases completes_perform.mp second with
          | executed executed =>
            cases executed
            exact ⟨rfl, rfl⟩
          | faulted fault => exact fault.elim
  · rintro ⟨rfl, rfl⟩
    refine completes_bind.mpr (.inr ⟨(), _, completes_perform.mpr (.executed (.incremented raised)), ?_⟩)
    exact completes_perform.mpr (.executed (.revokedAll owner))

theorem findRefreshToken_completes {tokenHash : String} {found : Option (RefreshToken × User)}
    {answer : Except Failure (Option (RefreshToken × User))} {last : World}
    (known : w.db.findRefreshToken tokenHash = found) :
    Process.Completes (Serves argon2 False) w (await (.findRefreshToken tokenHash)) answer last ↔
      answer = .ok found ∧ last = w := by
  refine completes_perform.trans ⟨fun served => ?_, ?_⟩
  · cases served with
    | executed executed =>
      cases executed
      exact ⟨congrArg _ known, rfl⟩
    | faulted fault => exact fault.elim
  · rintro ⟨rfl, rfl⟩
    exact known ▸ .executed (.foundToken _)

section Reused
variable {config : Config} {refreshToken : String} {row : RefreshToken} (given : refreshToken ≠ "")
  (found : w.db.findRefreshToken (hashRefreshToken config refreshToken) = some (row, user))
  (revoked : row.revoked = true) (replaced : row.replacedByTokenId.isSome = true)
include given found revoked replaced

theorem refresh_reused {answer : Except Failure Session} {last : World} :
    Process.Completes (Serves argon2 False) w (refresh config refreshToken) answer last ↔
      answer = .error (.forbidden "Refresh token reuse detected") ∧
        last = { w with db := w.db.logOutAll row.userId } := by
  have known := (Db.findRefreshToken_some found).2.2
  rw [refresh, completes_throwIf, completes_bind]
  simp only [findRefreshToken_completes found]
  constructor
  · rintro (⟨empty, _⟩ | ⟨_, ⟨e, _, same, _⟩ | ⟨b, between, ⟨same, rfl⟩, rest⟩⟩)
    · contradiction
    · contradiction
    · cases same
      rcases completes_orThrow.mp rest with ⟨none, _⟩ | ⟨b, same, rest⟩
      · contradiction
      · cases same
        rw [if_pos revoked, if_pos replaced] at rest
        rcases completes_bind.mp rest with ⟨e, rfl, failed⟩ | ⟨_, between, returned, thrown⟩
        · obtain ⟨contra, _⟩ := (logoutAll_completes known).mp failed
          contradiction
        · obtain ⟨_, rfl⟩ := (logoutAll_completes known).mp returned
          exact completes_fail.mp thrown
  · rintro ⟨rfl, rfl⟩
    refine .inr ⟨given, .inr ⟨_, w, ⟨rfl, rfl⟩, completes_orThrow.mpr (.inr ⟨_, rfl, ?_⟩)⟩⟩
    rw [if_pos revoked, if_pos replaced]
    refine completes_bind.mpr (.inr ⟨(), _, (logoutAll_completes known).mpr ⟨rfl, rfl⟩, ?_⟩)
    exact completes_fail.mpr ⟨rfl, rfl⟩

/-- A refresh that finds its row replaced logs the owner out and is forbidden. -/
theorem refresh_replaced {result : Except Failure Response} :
    Process.Completes (Serves argon2 False) w (handle config (.refresh refreshToken)) result w' ↔
      result = .error (.forbidden "Refresh token reuse detected") ∧
        w' = { w with db := w.db.logOutAll row.userId } := by
  refine completes_map.trans ⟨?_, ?_⟩
  · rintro ⟨answer, rfl, ran⟩
    obtain ⟨rfl, rfl⟩ := (refresh_reused given found revoked replaced).mp ran
    exact ⟨rfl, rfl⟩
  · rintro ⟨rfl, rfl⟩
    exact ⟨_, rfl, (refresh_reused given found revoked replaced).mpr ⟨rfl, rfl⟩⟩

end Reused

end Tables

/-! ### Rows that were rotated -/

section Run
variable {config : Config} {argon2 : String → String → Bool} {faults : Prop}
  {start service last : Service} {history later : List (Service × Occurrence)} {n m : Nat}
  {refreshToken : String} {row : RefreshToken}

/-- No operation of a refresh without a token is ever awaited. -/
theorem exchanged_given (run : Runs.Run (Service.Step config argon2 faults) start history service)
    (idle : start.running = []) (exchanged : Exchanged history n refreshToken) : refreshToken ≠ "" := by
  rintro rfl
  obtain ⟨pool, index, id, data, rest, here, found⟩ := exchanged
  obtain ⟨before, u, step, _⟩ := run.pass here
  have leads := run_leads before idle found
  generalize Process.told index (history.take n) = told at leads
  cases step with
  | served awaits =>
    cases found.symm.trans awaits
    cases leads

/-- What was exchanged once is replaced ever after. -/
theorem exchanged_replaced (run : Runs.Run (Service.Step config argon2 faults) start history service)
    (idle : start.running = []) (exchanged : Exchanged history n refreshToken) :
    ∃ row, service.world.db.refreshTokens.find row.id = some row ∧
      row.token = hashRefreshToken config refreshToken ∧ row.revoked = true ∧
      row.replacedByTokenId.isSome = true := by
  obtain ⟨pool, index, id, data, rest, here, found⟩ := exchanged
  obtain ⟨row, stored, hash, _⟩ := exchanged_row run idle here found
  obtain ⟨_, u, step, after⟩ := run.pass here
  obtain ⟨rotatedId, rotates⟩ := step_rotates step stored
  have key : row.id = id := Table.key_of_find stored
  have revoked : u.world.db.refreshTokens.find id = some (row.revoke (some rotatedId)) := by
    rw [rotates.find, if_neg, if_pos key.symm]
    rintro rfl
    exact nomatch rotates.fresh.symm.trans stored
  obtain ⟨row', there, later⟩ := (run_grows after).tokens id _ revoked
  obtain rfl := later.final rfl
  exact ⟨row.revoke (some rotatedId), key ▸ there, hash, rfl, rfl⟩

/-- A revoked row is not exchanged from there on. -/
theorem revoked_unexchanged (run : Runs.Run (Service.Step config argon2 faults) start history service)
    (started : start.Started) (rest : Runs.Run (Service.Step config argon2 faults) service later last)
    (member : row ∈ service.world.db.refreshTokens.rows) (revoked : row.revoked = true)
    (hash : row.token = hashRefreshToken config refreshToken) : ¬ Exchanged later m refreshToken := by
  rintro ⟨pool, index, id, data, process, here, found⟩
  have whole := run.trans rest
  have there : (history ++ later)[history.length + m]? =
      some (pool, .served index (.rotate id data) (.ok ())) := by
    rw [List.getElem?_append_right (Nat.le_add_right _ _), Nat.add_sub_cancel_left]
    exact here
  obtain ⟨row', stored, hash', unrevoked, _⟩ := exchanged_row whole started.running there found
  obtain ⟨reached, _⟩ := rest.pass here
  obtain ⟨row'', kept, later'⟩ := (run_grows reached).tokens row.id row (Table.find_of_mem member)
  obtain rfl := later'.final revoked
  have linked := (run_sessions (whole.pass there).1 started).1
  obtain rfl := linked.hashes _ _ _ _ kept stored (hash.trans hash'.symm)
  obtain rfl := Option.some.inj (kept.symm.trans stored)
  rw [unrevoked] at revoked
  contradiction

/-- Whatever has happened, a refresh with a token that was ever rotated is forbidden when it
runs to its end: it logs its owner out once more and issues nothing, no token of the owner that
is there then is exchanged any more, and nobody else is touched. -/
theorem reuse_detected (run : Runs.Run (Service.Step config argon2 faults) start history service)
    (started : start.Started) (exchanged : Exchanged history n refreshToken) :
    ∃ row ∈ service.world.db.refreshTokens.rows,
      row.token = hashRefreshToken config refreshToken ∧
      ∃ after, service.world.LogsOut row.userId after ∧
        (∀ result last, Process.Completes (Serves argon2 False) service.world
          (handle config (.refresh refreshToken)) result last ↔
            result = .error (.forbidden "Refresh token reuse detected") ∧ last = after) ∧
        ∀ later last, Runs.Run (Service.Step config argon2 faults)
          ⟨after, service.running ++ [(.refresh refreshToken,
            .fail (.forbidden "Refresh token reuse detected"))]⟩ later last →
          ∀ row' ∈ after.db.refreshTokens.rows, row'.userId = row.userId →
            ∀ m token, row'.token = hashRefreshToken config token → ¬ Exchanged later m token := by
  obtain ⟨row, stored, hash, revoked, replaced⟩ := exchanged_replaced run started.running exchanged
  have given := exchanged_given run started.running exchanged
  obtain ⟨user, known, _⟩ := run_bounded run started.running started.refreshTokens row.id row stored
  have linked := (run_sessions run started).1
  have found := linked.found stored hash known
  have ends (result last) : Process.Completes (Serves argon2 False) service.world
      (handle config (.refresh refreshToken)) result last ↔ _ :=
    refresh_replaced given found revoked replaced
  refine ⟨row, Table.mem_of_find stored, hash, _, logsOut_logOutAll known, ends, ?_⟩
  intro later last rest row' member own m token hash'
  have completes := (ends _ _).mpr ⟨rfl, rfl⟩
  have alone : ∃ trace, Runs.Run (Service.Step config argon2 faults)
      ⟨service.world, service.running ++ [(.refresh refreshToken, handle config (.refresh refreshToken))]⟩
      trace ⟨{ service.world with db := service.world.db.logOutAll row.userId }, _⟩ :=
    (completes.mono serves_faults).run List.getElem?_concat_length
  obtain ⟨trace, alone⟩ := alone
  rw [List.set_append_right _ _ (Nat.le_refl _), Nat.sub_self] at alone
  have reached := (run.tail (.start (.refresh refreshToken))).trans alone
  exact revoked_unexchanged reached started rest member ((logsOut_logOutAll known).revoked row' member own)
    hash'

end Run

/-- A registration and two refreshes, so that the first token is two rows back. -/
def Sample.twiceRefreshed : List (Process.Move Endpoint) :=
  registration ++ alone 1 6 (.refresh "r") ++ alone 2 6 (.refresh "rr")

theorem reuse_detected_sample : ∃ (service : Service) (history : List (Service × Occurrence)) (after : World),
    Exchanged history 13 "r" ∧ service.world.LogsOut Sample.userId after ∧
      Process.Completes (Serves Sample.argon2 False) service.world (handle Sample.config (.refresh "r"))
        (.error (.forbidden "Refresh token reuse detected")) after := by
  have happens : ∃ played, Sample.plays Sample.start Sample.twiceRefreshed = some played ∧
      Exchanged played.1 13 "r" ∧
      ∀ row ∈ played.2.world.db.refreshTokens.rows, row.userId = Sample.userId :=
    ⟨_, rfl, ⟨_, _, _, _, _, rfl, rfl⟩, by decide⟩
  obtain ⟨⟨history, service⟩, plays, exchanged, owned⟩ := happens
  obtain ⟨row, member, _, after, logsOut, ends, _⟩ :=
    reuse_detected (Sample.plays_run plays) Sample.started exchanged
  rw [owned row member] at logsOut
  exact ⟨service, history, after, exchanged, logsOut, (ends _ _).mpr ⟨rfl, rfl⟩⟩

end Stellance.Auth
