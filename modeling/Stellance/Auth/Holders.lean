import Stellance.Auth.Lives
import Stellance.Auth.Versions

/-! Users whose tokens are used with care: each is presented by one request, and the user does
not log out everywhere. Whatever the requests of other users are, such a user is never taken
for a thief, and every session goes on until it is ended or expires. -/
namespace Stellance.Auth
open AuthService
open Process hiding await
open Backend (Uuid UserRole)

/-- The hash of the token a request comes with. -/
def Endpoint.presents (config : Config) : Endpoint → Option String
  | .refresh refreshToken | .revokeRefreshToken refreshToken => some (hashRefreshToken config refreshToken)
  | _ => none

/-- The same, where there is a token at all. -/
def Endpoint.brings (config : Config) : Endpoint → Option String
  | .refresh refreshToken | .revokeRefreshToken refreshToken =>
      if refreshToken = "" then none else some (hashRefreshToken config refreshToken)
  | _ => none

/-- Of the requests made so far, no two came with one token of the user, and none logs the user
out everywhere. -/
structure Service.Careful (config : Config) (userId : Uuid) (service : Service) : Prop where
  once : ∀ {i j : Nat} {endpoint endpoint' : Endpoint} {rest rest' : Process Failure Op Op.Answer Response}
    {row : RefreshToken}, service.running[i]? = some (endpoint, rest) →
    service.running[j]? = some (endpoint', rest') → row ∈ service.world.db.refreshTokens.rows →
    row.userId = userId → endpoint.presents config = some row.token →
    endpoint'.presents config = some row.token → i = j
  stays : ∀ entry ∈ service.running, entry.1 ≠ .logoutAll userId

/-- The request was turned down for what it came with, not for an error of a library. -/
def Refused (rest : Process Failure Op Op.Answer Response) : Prop :=
  ∃ status message, rest = .fail (.http status message)

/-- A token of the user comes with another request only when all before it were refused, and no
request logs the user out everywhere. -/
structure Orderly (config : Config) (userId : Uuid) (history : List (Service × Occurrence)) (service : Service) :
    Prop where
  turns : ∀ {n : Nat} {pool : Service} {endpoint : Endpoint} {row : RefreshToken},
    history[n]? = some (pool, .start endpoint) → row ∈ service.world.db.refreshTokens.rows →
    row.userId = userId → endpoint.brings config = some row.token →
    ∀ entry ∈ pool.running, entry.1.brings config = some row.token → Refused entry.2
  stays : ∀ entry ∈ service.running, entry.1 ≠ .logoutAll userId

/-- The operation uses a token up. -/
def Op.Spends : Op → Prop
  | .rotate .. | .revokeRefreshToken _ => True
  | _ => False

/-- The operation logs a user out everywhere. -/
def Op.LogsOut (userId : Uuid) : Op → Prop
  | .incrementTokenVersion other | .revokeAll other => other = userId
  | _ => False

section Holders
variable {config : Config} {argon2 : String → String → Bool} {faults : Prop} {db db' : Db} {userId key : Uuid}
  {row row' : RefreshToken} {user : User} {op : Op} {answer : Except Failure op.Answer}
  {start service service' : Service} {history : List (Service × Occurrence)} {occurrence : Occurrence}
  {index n : Nat}

theorem Endpoint.brings_presents {endpoint : Endpoint} {token : String}
    (brings : endpoint.brings config = some token) : endpoint.presents config = some token := by
  cases endpoint with
  | refresh | revokeRefreshToken =>
    rw [Endpoint.brings] at brings
    split at brings
    · contradiction
    · exact brings
  | _ => contradiction

/-! ### What revokes a row -/

theorem revokeMany_revoked {where' : RefreshToken → Bool} {replacement : Option Uuid}
    (found : (db.revokeMany where' replacement).refreshTokens.find key = some row')
    (revoked : row'.revoked = true) :
    ∃ row, db.refreshTokens.find key = some row ∧ (row.revoked = true ∨ where' row = true) := by
  rw [Db.revokeMany_find] at found
  obtain ⟨row, there, same⟩ := Option.map_eq_some_iff.mp found
  refine ⟨row, there, ?_⟩
  split at same
  · rename_i chosen
    exact .inr chosen.1
  · exact .inl (same ▸ revoked)

theorem executes_revokes (executed : Executes db op answer db')
    (found : db'.refreshTokens.find key = some row') (revoked : row'.revoked = true) :
    (∃ row, db.refreshTokens.find key = some row ∧ row.revoked = true) ∨
      (∃ data, op = .rotate key data) ∨ op = .revokeRefreshToken row'.token ∨ op = .revokeAll row'.userId := by
  have inserted : ∀ {id : Uuid} {data : NewToken} {db' : Db} {row' : RefreshToken},
      db.createRefreshToken id data = some db' → db'.refreshTokens.find key = some row' →
      row'.revoked = true → ∃ row, db.refreshTokens.find key = some row ∧ row.revoked = true := by
    intro id data db' row' created found revoked
    rw [Db.createRefreshToken_find created] at found
    split at found
    · cases found
      contradiction
    · exact ⟨row', found, revoked⟩
  have older : ∀ {where' : RefreshToken → Bool} {row' : RefreshToken},
      (db.revokeMany where' none).refreshTokens.find key = some row' → row'.revoked = true →
      (∃ row, db.refreshTokens.find key = some row ∧ row.revoked = true) ∨
        ∃ row, where' row = true ∧ row.token = row'.token ∧ row.userId = row'.userId := by
    intro where' row' found revoked
    obtain ⟨row, there, later⟩ := Db.revokeMany_origin found
    obtain ⟨row'', there', chosen⟩ := revokeMany_revoked found revoked
    cases there.symm.trans there'
    obtain ⟨_, token, owner, _⟩ := later.kept
    exact chosen.imp (fun revoked => ⟨row, there, revoked⟩) fun chosen => ⟨row, chosen, token.symm, owner.symm⟩
  cases executed with
  | createdUser made => exact .inl ⟨row', (Db.createUser_some made).2.2.2.2 ▸ found, revoked⟩
  | createdToken created => exact .inl (inserted created found revoked)
  | @rotated existingId rotatedId data _ rotated =>
    unfold Db.rotate at rotated
    obtain ⟨between, created, outcome⟩ := Option.map_eq_some_iff.mp rotated
    split at outcome
    · contradiction
    · cases outcome
      obtain ⟨row, there, revoked | chosen⟩ := revokeMany_revoked found revoked
      · exact .inl (inserted created there revoked)
      · obtain rfl : row.id = existingId := by simpa using chosen
        exact .inr (.inl ⟨data, by rw [Table.key_of_find there]⟩)
  | revoked token =>
    refine (older found revoked).imp_right ?_
    rintro ⟨row, chosen, same, _⟩
    exact .inr (.inl (congrArg _ ((of_decide_eq_true chosen).symm.trans same)))
  | revokedAll owner =>
    refine (older found revoked).imp_right ?_
    rintro ⟨row, chosen, _, same⟩
    exact .inr (.inr (congrArg _ ((of_decide_eq_true chosen).symm.trans same)))
  | incremented incremented =>
    obtain ⟨_, _, _, _, same⟩ := Db.incrementTokenVersion_some incremented
    exact .inl ⟨row', same ▸ found, revoked⟩
  | foundUser | refusedUser | foundToken | raced | noUser => exact .inl ⟨row', found, revoked⟩

theorem step_revokes (step : Service.Step config argon2 faults service occurrence service')
    (found : service'.world.db.refreshTokens.find key = some row') (revoked : row'.revoked = true) :
    (∃ row, service.world.db.refreshTokens.find key = some row ∧ row.revoked = true) ∨
      ∃ index op answer, occurrence = .served index op answer ∧
        ((∃ data, op = .rotate key data) ∨ op = .revokeRefreshToken row'.token ∨ op = .revokeAll row'.userId) := by
  cases step with
  | start => exact .inl ⟨row', found, revoked⟩
  | @served _ _ index _ op _ answer _ _ answered =>
    cases answered with
    | executed executed =>
      exact (executes_revokes executed found revoked).imp_right fun by' => ⟨index, op, answer, rfl, by'⟩
    | _ => exact .inl ⟨row', found, revoked⟩
  | outside around =>
    cases around
    exact .inl ⟨row', found, revoked⟩

/-- A rotation is refused as a reuse where its row is revoked. -/
theorem step_raced {existingId : Uuid} {data : NewToken} {error : Failure}
    (step : Service.Step config argon2 faults service (.served index (.rotate existingId data) (.error error))
      service') (forbidden : Failure.isForbidden error = true)
    (found : service.world.db.refreshTokens.find existingId = some row) :
    row.revoked = true := by
  cases step with
  | served _ answered =>
    cases answered with
    | executed executed =>
      cases executed with
      | raced raced => exact (Db.rotate_error raced found).1
    | faulted => contradiction

theorem serves_error {w w' : World} {error : Failure} (served : Serves argon2 faults w op (.error error) w') :
    (∃ message, error = .internal message) ∨
      (∃ existingId data, op = .rotate existingId data ∧ Failure.isForbidden error = true) ∨
      ∃ token, op = .verifyJwt token := by
  cases served with
  | executed executed =>
    cases executed with
    | refusedUser message | noUser message => exact .inl ⟨message, rfl⟩
    | raced raced => exact .inr (.inl ⟨_, _, rfl, Db.rotate_forbidden raced ▸ rfl⟩)
  | rejected => exact .inr (.inr ⟨_, rfl⟩)
  | faulted fault message => exact .inl ⟨message, rfl⟩

/-- Nothing of the run logs the user out everywhere. -/
def Quiet (userId : Uuid) (history : List (Service × Occurrence)) : Prop :=
  ∀ ⦃n index : Nat⦄ ⦃pool : Service⦄ ⦃op : Op⦄ ⦃answer : Except Failure op.Answer⦄,
    history[n]? = some (pool, .served index op answer) → ¬ op.LogsOut userId

/-- The row was used up at some point of the run. -/
def SpentBy (history : List (Service × Occurrence)) (row : RefreshToken) : Prop :=
  ∃ (n index : Nat) (pool : Service) (op : Op) (answer : Except Failure op.Answer),
    history[n]? = some (pool, .served index op answer) ∧
      ((∃ data, op = .rotate row.id data) ∨ op = .revokeRefreshToken row.token)

theorem Quiet.take (quiet : Quiet userId history) (m : Nat) : Quiet userId (history.take m) := by
  intro n index pool op answer here
  rw [List.getElem?_take] at here
  split at here
  · exact quiet here
  · contradiction

theorem Quiet.drop (quiet : Quiet userId history) (m : Nat) : Quiet userId (history.drop m) := by
  intro n index pool op answer here
  rw [List.getElem?_drop] at here
  exact quiet here

section Run
variable (run : Runs.Run (Service.Step config argon2 faults) start history service)
include run

/-- Where nobody logs the user out everywhere, a revoked row of the user was used up. -/
theorem revoked_spent (none' : start.world.db.refreshTokens.rows = []) (quiet : Quiet userId history)
    (found : service.world.db.refreshTokens.find key = some row) (own : row.userId = userId)
    (revoked : row.revoked = true) : SpentBy history row := by
  induction run generalizing row with
  | refl =>
    have member := Table.mem_of_find found
    rw [none'] at member
    contradiction
  | @tail earlier before occurrence _ run step ih =>
    have last : (earlier ++ [(before, occurrence)])[earlier.length]? = some (before, occurrence) :=
      List.getElem?_concat_length
    rcases step_revokes step found revoked with ⟨old, there, revoked'⟩ | ⟨index, op, answer, rfl, by'⟩
    · obtain ⟨row', there', later⟩ := (step_grows step).tokens key old there
      cases found.symm.trans there'
      obtain rfl := later.final revoked'
      obtain ⟨n, index, pool, op, answer, here, by'⟩ :=
        ih (fun _ _ _ _ _ here => quiet (Runs.still_at here)) there own revoked
      exact ⟨n, index, pool, op, answer, Runs.still_at here, by'⟩
    · refine ⟨earlier.length, index, _, op, answer, last, ?_⟩
      rcases by' with ⟨data, rotates⟩ | revokes | everywhere
      · exact .inl ⟨data, by rw [rotates, Table.key_of_find found]⟩
      · exact .inr revokes
      · refine absurd ?_ (quiet last)
        rw [everywhere]
        exact own

/-- A request that is served has not come with an empty token. -/
theorem served_brings (idle : start.running = []) {pool : Service}
    (here : history[n]? = some (pool, .served index op answer)) {endpoint : Endpoint}
    {rest : Process Failure Op Op.Answer Response} {token : String}
    (there : pool.running[index]? = some (endpoint, rest)) (presents : endpoint.presents config = some token) :
    endpoint.brings config = some token := by
  obtain ⟨before, _, step, _⟩ := run.pass here
  cases step with
  | @served _ _ _ _ _ next _ _ waiting =>
    cases there.symm.trans waiting
    have leads := run_leads before idle waiting
    generalize Process.told index (history.take n) = told at leads
    cases endpoint with
    | refresh refreshToken =>
      rw [Endpoint.brings, if_neg]
      · exact presents
      · rintro rfl
        cases leads
    | revokeRefreshToken refreshToken =>
      rw [Endpoint.brings, if_neg]
      · exact presents
      · rintro rfl
        cases leads
    | _ => contradiction

/-- Who uses a token up came with it. -/
theorem spent_brings (idle : start.running = []) (found : service.world.db.refreshTokens.find key = some row)
    (spent : SpentBy history row) :
    ∃ (n index : Nat) (pool : Service) (op : Op) (answer : Except Failure op.Answer) (endpoint : Endpoint)
      (rest : Process Failure Op Op.Answer Response),
      history[n]? = some (pool, .served index op answer) ∧ op.Spends ∧
        pool.running[index]? = some (endpoint, rest) ∧ endpoint.brings config = some row.token := by
  obtain ⟨n, index, pool, op, answer, here, ⟨data, rfl⟩ | rfl⟩ := spent
  · obtain ⟨refreshToken, _, read, _, _, _, current, ⟨rest, there⟩, _, same, _, _, hash, _, stored, later⟩ :=
      rotate_reads run idle here
    obtain ⟨_, _, step, after⟩ := run.pass here
    obtain ⟨last, stored', later'⟩ := ((step_grows step).trans (run_grows after)).tokens _ _ stored
    have same' : row.id = key := Table.key_of_find found
    rw [← same, same', found] at stored'
    cases stored'
    refine ⟨n, index, pool, _, answer, _, rest, here, trivial, there, served_brings run idle here there ?_⟩
    rw [Endpoint.presents, later'.kept.2.1, later.kept.2.1, hash]
  · obtain ⟨endpoint, next, there, script⟩ := run_script run idle (handle_follows config) here
    refine ⟨n, index, pool, _, answer, endpoint, _, here, trivial, there, served_brings run idle here there ?_⟩
    generalize told : Process.told index (history.take n) = list at script
    generalize same : Op.revokeRefreshToken row.token = op at script
    cases script with
    | revoke =>
      injection same with token
      rw [Endpoint.presents, token]
    | idle idle =>
      subst same
      contradiction
    | _ => contradiction

/-- Tokens presented once come in order. -/
theorem Service.Careful.orderly (careful : service.Careful config userId) :
    Orderly config userId history service where
  turns := by
    intro n pool endpoint row here member own brings entry among brings'
    have presents := Endpoint.brings_presents brings
    have presents' := Endpoint.brings_presents brings'
    obtain ⟨i, there⟩ := List.mem_iff_getElem?.mp among
    have there : pool.running[i]? = some (entry.1, entry.2) := there
    obtain ⟨_, _, step, after⟩ := run.pass here
    cases step with
    | @start world running =>
      have first : (running ++ [(endpoint, handle config endpoint)])[running.length]? =
          some (endpoint, handle config endpoint) := List.getElem?_concat_length
      have inside : i < running.length := (List.getElem?_eq_some_iff.mp there).1
      have there' : (running ++ [(endpoint, handle config endpoint)])[i]? = some (entry.1, entry.2) :=
        Runs.still_at there
      obtain ⟨_, last⟩ := run_request_kept after first
      obtain ⟨_, last'⟩ := run_request_kept after there'
      have same := careful.once last last' member own presents presents'
      omega
  stays := careful.stays

/-- The row a request has read is the row that is stored under the hash. -/
theorem seen_same (started : start.Started) {token : String}
    (member : seen token row user ∈ Process.told index history)
    (found : service.world.db.refreshTokens.find key = some row') (hash : row'.token = token) : row.Later row' := by
  obtain ⟨same, _, ⟨current, there, later⟩, _⟩ := seen_known run member
  have linked := (run_sessions run started).1
  obtain rfl : row.id = key := by
    refine linked.hashes _ _ current row' there found ?_
    rw [later.kept.2.1, same, hash]
  cases there.symm.trans found
  exact later

theorem Orderly.before (orderly : Orderly config userId history service) {m : Nat} {pool : Service}
    (here : history[m]? = some (pool, occurrence)) : Orderly config userId (history.take m) pool := by
  obtain ⟨_, _, step, after⟩ := run.pass here
  constructor
  · intro n earlier endpoint row there member own brings
    obtain ⟨row', stored, later⟩ :=
      ((step_grows step).trans (run_grows after)).tokens row.id row (Table.find_of_mem member)
    obtain ⟨_, token, owner, _⟩ := later.kept
    rw [List.getElem?_take] at there
    split at there
    · rw [← token] at brings ⊢
      exact orderly.turns there (Table.mem_of_find stored) (owner.trans own) brings
    · contradiction
  · intro entry member
    obtain ⟨index, there⟩ := List.mem_iff_getElem?.mp member
    have there : pool.running[index]? = some (entry.1, entry.2) := there
    obtain ⟨_, last⟩ := run_request_kept (.head step after) there
    have stays := orderly.stays _ (List.mem_of_getElem? last)
    exact stays

/-- Of two requests with a token, the first has been refused. -/
theorem Orderly.turn (orderly : Orderly config userId history service) (idle : start.running = []) {i j : Nat}
    {endpoint endpoint' : Endpoint} {rest rest' : Process Failure Op Op.Answer Response}
    (there : service.running[i]? = some (endpoint, rest)) (there' : service.running[j]? = some (endpoint', rest'))
    (before : i < j) (member : row ∈ service.world.db.refreshTokens.rows) (own : row.userId = userId)
    (brings : endpoint.brings config = some row.token) (brings' : endpoint'.brings config = some row.token) :
    ∃ status message, service.running[i]? = some (endpoint, .fail (.http status message)) := by
  obtain ⟨n, pool, here, rfl⟩ := run_started run idle there'
  obtain ⟨_, _, step, after⟩ := run.pass here
  have known : pool.running[i]? = some (pool.running[i].1, pool.running[i].2) := List.getElem?_eq_getElem before
  obtain ⟨_, last⟩ := run_request_kept (.head step after) known
  cases there.symm.trans last
  obtain ⟨status, message, refused⟩ := orderly.turns here member own brings' _ (List.mem_of_getElem? known) brings
  rw [refused] at known
  exact ⟨status, message, run_over_kept (.head step after) known (by rintro _ _ ⟨⟩)⟩

/-- What an operation of a request fails with. -/
theorem told_error (idle : start.running = []) {endpoint : Endpoint} {rest : Process Failure Op Op.Answer Response}
    {error : Failure} (there : service.running[index]? = some (endpoint, rest))
    (member : (⟨op, .error error⟩ : Exchange) ∈ Process.told index history) :
    (∃ message, error = .internal message) ∨
      (∃ existingId data, op = .rotate existingId data ∧ Failure.isForbidden error = true) ∨
      ∃ token, endpoint = .authenticate token := by
  obtain ⟨n, pool, here⟩ := told_at.mp member
  obtain ⟨endpoint', next, there', script⟩ := run_script run idle (handle_follows config) here
  obtain ⟨_, _, step, after⟩ := run.pass here
  obtain ⟨_, kept⟩ := run_request_kept (.head step after) there'
  cases there.symm.trans kept
  cases step with
  | served _ answered =>
    rcases serves_error answered with internal | rotates | ⟨token, rfl⟩
    · exact .inl internal
    · exact .inr (.inl rotates)
    · generalize Process.told index (history.take n) = earlier at script
      cases script with
      | idle idle => contradiction
      | verify => exact .inr (.inr ⟨token, rfl⟩)

/-- A request that was refused has not used the token it came with. -/
theorem refused_unspent (started : start.Started) (quiet : Quiet userId history) {endpoint : Endpoint}
    {status : HttpStatus} {message : String}
    (ends : service.running[index]? = some (endpoint, .fail (.http status message)))
    (presents : endpoint.presents config = some row.token)
    (found : service.world.db.refreshTokens.find key = some row) (own : row.userId = userId) :
    ∀ exchange ∈ Process.told index history, ¬ exchange.1.Spends := by
  intro exchange member spends
  have failed : ∀ {op : Op}, (⟨op, .error (.http status message)⟩ : Exchange) ∈ Process.told index history →
      ∃ existingId data, op = .rotate existingId data ∧ Failure.isForbidden (.http status message) = true := by
    intro op member
    rcases told_error run started.running ends member with ⟨_, other⟩ | rotates | ⟨_, rfl⟩
    · contradiction
    · exact rotates
    · contradiction
  have life := run_follows run started.running (handle_follows config) ends
  cases endpoint with
  | refresh refreshToken =>
    obtain ⟨session, life, same⟩ := life
    have hash : row.token = hashRefreshToken config refreshToken := (Option.some.inj presents).symm
    cases session with
    | ok => contradiction
    | error error =>
      cases same
      generalize told : Process.told index history = list at life
      rw [told] at member
      cases life with
      | missing => exact absurd member List.not_mem_nil
      | unknown | revoked | reused | expired | outdated =>
        simp only [List.mem_cons, List.not_mem_nil, or_false] at member
        rcases member with rfl | rfl | rfl <;> exact spends
      | @raced row' user =>
        have read : seen (hashRefreshToken config refreshToken) row' user ∈ Process.told index history := by
          rw [told]
          exact List.mem_append_left _ List.mem_cons_self
        have later := seen_same run started read found hash
        have increments : (⟨.incrementTokenVersion row'.userId, .ok ()⟩ : Exchange) ∈ Process.told index history := by
          rw [told]
          simp
        obtain ⟨_, _, here⟩ := told_at.mp increments
        exact quiet here (later.kept.2.2.1.symm.trans own)
      | @failed before op _ unforbidden =>
        have last : (⟨op, .error (.http status message)⟩ : Exchange) ∈ Process.told index history := by
          rw [told]
          exact List.mem_append_right _ List.mem_cons_self
        obtain ⟨existingId, data, rotates, forbidden⟩ := failed last
        rw [unforbidden existingId data rotates] at forbidden
        contradiction
  | revokeRefreshToken refreshToken =>
    rcases life with ⟨_, _, same⟩ | ⟨answer, _, told, same⟩
    · contradiction
    · cases answer with
      | ok => contradiction
      | error error =>
        cases same
        obtain ⟨_, _, rotates, _⟩ := failed (told ▸ List.mem_cons_self)
        contradiction
  | _ => contradiction

/-- As long as the request that comes with the token of a row has not used it, the row is not revoked. -/
theorem unspent (started : start.Started) (orderly : Orderly config userId history service) {m : Nat} {pool : Service}
    (here : history[m]? = some (pool, .served index op answer)) (quiet : Quiet userId (history.take m))
    {endpoint : Endpoint} {rest : Process Failure Op Op.Answer Response}
    (there : pool.running[index]? = some (endpoint, rest))
    (unused : ∀ exchange ∈ Process.told index (history.take m), ¬ exchange.1.Spends)
    (found : pool.world.db.refreshTokens.find key = some row) (own : row.userId = userId)
    (presents : endpoint.presents config = some row.token) : row.revoked = false := by
  by_contra revoked
  obtain ⟨before, _, step, after⟩ := run.pass here
  have spent := revoked_spent before started.refreshTokens quiet found own (by simpa using revoked)
  obtain ⟨n, other, pool', op', answer', endpoint', _, earlier, spends, there', brings'⟩ :=
    spent_brings before started.running found spent
  have apart : other ≠ index := by
    rintro rfl
    exact unused ⟨op', answer'⟩ (told_at.mpr ⟨n, pool', earlier⟩) spends
  obtain ⟨_, _, step', after'⟩ := before.pass earlier
  obtain ⟨_, kept⟩ := run_request_kept (.head step' after') there'
  have member := Table.mem_of_find found
  have brings := served_brings run started.running here there presents
  have orderly : Orderly config userId (history.take m) pool := orderly.before run here
  rcases Nat.lt_or_gt_of_ne apart with first | first
  · obtain ⟨_, _, refused⟩ := orderly.turn before started.running kept there first member own brings' brings
    have used : (⟨op', answer'⟩ : Exchange) ∈ Process.told other (history.take m) :=
      told_at.mpr ⟨n, pool', earlier⟩
    exact refused_unspent before started quiet refused (Endpoint.brings_presents brings') found own _ used spends
  · obtain ⟨_, _, refused⟩ := orderly.turn before started.running there kept first member own brings brings'
    cases step with
    | served waiting => cases waiting.symm.trans refused

/-- Who reads a row of the user finds it unrevoked. -/
theorem read_unrevoked (started : start.Started) (orderly : Orderly config userId history service) {m : Nat}
    {pool : Service} {token : String}
    (here : history[m]? = some (pool, .served index (.findRefreshToken token) (.ok (some (row, user)))))
    (quiet : Quiet userId (history.take m)) (own : row.userId = userId) : row.revoked = false := by
  obtain ⟨_, _, step, _⟩ := run.pass here
  obtain ⟨stored, hash, _⟩ := Db.findRefreshToken_some (step_found step).1.symm
  obtain ⟨endpoint, next, there, script⟩ := run_script run started.running (handle_follows config) here
  generalize told : Process.told index (history.take m) = list at script
  cases script with
  | idle idle => contradiction
  | read =>
    refine unspent run started orderly here quiet there ?_ stored own (congrArg some hash.symm)
    rw [told]
    exact fun _ member => absurd member List.not_mem_nil

/-- The user is never logged out everywhere. -/
theorem quiet_of_orderly (started : start.Started) (orderly : Orderly config userId history service) :
    Quiet userId history := by
  intro n
  induction n using Nat.strong_induction_on with
  | _ n ih =>
    intro index pool op answer here logsOut
    have quiet : ∀ {m : Nat}, m ≤ n → Quiet userId (history.take m) := by
      intro m upto k index pool op answer there
      rw [List.getElem?_take] at there
      split at there
      · rename_i inside
        exact ih k (by omega) there
      · contradiction
    obtain ⟨endpoint, next, there, script⟩ := run_script run started.running (handle_follows config) here
    generalize told : Process.told index (history.take n) = list at script
    cases script with
    | idle idle => cases op <;> contradiction
    | @reused refreshToken row user revoked replaced =>
      -- the reading found the row revoked, though nobody had used it
      have read : seen (hashRefreshToken config refreshToken) row user ∈ Process.told index (history.take n) := by
        rw [told]
        exact List.mem_cons_self
      obtain ⟨m, before, pool', at'⟩ := told_take read
      rw [read_unrevoked run started orderly at' (quiet (Nat.le_of_lt before)) logsOut] at revoked
      contradiction
    | @raced refreshToken bytes row user now later error able forbidden =>
      have rotates : (⟨.rotate row.id (successor config row user bytes later), .error error⟩ : Exchange) ∈
          Process.told index (history.take n) := by
        rw [told]
        simp
      obtain ⟨m, before, pool', at'⟩ := told_take rotates
      obtain ⟨_, _, row', _, _, _, current, ⟨_, there'⟩, read, same, _, _, hash, _, stored, later'⟩ :=
        rotate_reads run started.running at'
      obtain ⟨_, token, owner, _⟩ := later'.kept
      have unused : ∀ exchange ∈ Process.told index (history.take m), ¬ exchange.1.Spends := by
        intro exchange member
        rw [read] at member
        simp only [prepared, List.mem_cons, List.not_mem_nil, or_false] at member
        rcases member with rfl | rfl | rfl | rfl <;> exact id
      have own : current.userId = userId := by
        have reading : seen (hashRefreshToken config refreshToken) row user ∈
            Process.told index (history.take n) := by
          rw [told]
          exact List.mem_append_left _ List.mem_cons_self
        obtain ⟨_, _, ⟨last, there, later⟩, _⟩ := seen_known (run.pass here).1 reading
        obtain ⟨_, step, rest⟩ := run.between at' here before
        obtain ⟨last', there', later'⟩ := (run_grows (.head step rest)).tokens _ current (same ▸ stored)
        cases there.symm.trans there'
        exact later'.kept.2.2.1.symm.trans (later.kept.2.2.1.trans logsOut)
      have unrevoked := unspent run started orderly at' (quiet (Nat.le_of_lt before)) there' unused stored own
        (congrArg some (token.trans hash).symm)
      obtain ⟨_, _, step, _⟩ := run.pass at'
      rw [step_raced step forbidden (same ▸ stored)] at unrevoked
      contradiction
    | @logoutAll userId' =>
      obtain rfl : userId' = userId := logsOut
      exact (orderly.before run here).stays _ (List.mem_of_getElem? there) rfl
    | @revokeAll _ earlier userId' =>
      have increments : (⟨.incrementTokenVersion userId', .ok ()⟩ : Exchange) ∈
          Process.told index (history.take n) := by
        rw [told]
        exact List.mem_append_right _ List.mem_cons_self
      obtain ⟨m, before, pool', at'⟩ := told_take increments
      exact ih m before at' logsOut
    | _ => contradiction

end Run

/-! ### What stays -/

theorem executes_stays (executed : Executes db op answer db') (quiet : ¬ op.LogsOut userId)
    (known : db.users.find userId = some user) : db'.users.find userId = some user := by
  cases executed with
  | createdUser created =>
    obtain ⟨absent, _, _, others, _⟩ := Db.createUser_some created
    rw [others, known]
    rintro rfl
    rw [known] at absent
    contradiction
  | createdToken created =>
    rw [(Db.createRefreshToken_some created).2.2.2]
    exact known
  | rotated rotated =>
    rw [Db.rotate_users rotated]
    exact known
  | incremented incremented =>
    obtain ⟨_, _, _, others, _⟩ := Db.incrementTokenVersion_some incremented
    rw [others userId (Ne.symm quiet)]
    exact known
  | foundUser | refusedUser | foundToken | raced | revoked | noUser | revokedAll => exact known

theorem step_stays (step : Service.Step config argon2 faults service occurrence service')
    (quiet : ∀ index op answer, occurrence = .served index op answer → ¬ op.LogsOut userId)
    (known : service.world.db.users.find userId = some user) :
    service'.world.db.users.find userId = some user := by
  cases step with
  | start => exact known
  | served _ answered =>
    have quiet := quiet _ _ _ rfl
    cases answered with
    | executed executed => exact executes_stays executed quiet known
    | _ => exact known
  | outside around =>
    cases around
    exact known

section Run
variable (run : Runs.Run (Service.Step config argon2 faults) start history service)
include run

theorem run_stays (quiet : Quiet userId history) (known : start.world.db.users.find userId = some user) :
    service.world.db.users.find userId = some user := by
  refine run.invariant_of (fun service => service.world.db.users.find userId = some user)
    (fun _ occurrence => ∀ index op answer, occurrence = .served index op answer → ¬ op.LogsOut userId)
    (fun known quiet step => step_stays step quiet known) ?_ known
  rintro ⟨pool, _⟩ member index op answer rfl
  obtain ⟨n, here⟩ := List.mem_iff_getElem?.mp member
  exact quiet here

/-- Every row of the user carries the version of the user. -/
theorem run_current (started : start.Started) (quiet : Quiet userId history)
    (found : service.world.db.refreshTokens.find key = some row) (own : row.userId = userId) :
    ∃ user, service.world.db.users.find userId = some user ∧ row.tokenVersion = user.tokenVersion := by
  induction run generalizing row with
  | refl =>
    have member := Table.mem_of_find found
    rw [started.refreshTokens] at member
    contradiction
  | @tail earlier before occurrence after run step ih =>
    have whole := run.tail step
    have last : (earlier ++ [(before, occurrence)])[earlier.length]? = some (before, occurrence) :=
      List.getElem?_concat_length
    rcases step_row step found with ⟨old, there, later⟩ | ⟨index, op, answer, data, rfl, issues, of⟩
    · obtain ⟨_, _, owner, version, _⟩ := later.kept
      have quiet' := quiet.take earlier.length
      rw [List.take_left] at quiet'
      obtain ⟨user, known, same⟩ := ih quiet' there (owner.symm.trans own)
      refine ⟨user, step_stays step ?_ known, version.trans same⟩
      rintro index op answer rfl
      exact quiet last
    · -- the user was read by the request before, and has stayed the same
      obtain ⟨user, readings, for'⟩ := issue_reads whole started.running last issues
      have read : user ∈ (Process.told index
          ((earlier ++ [(before, Event.served index op answer)]).take earlier.length)).filterMap reads := by
        rw [readings]
        exact List.mem_cons_self
      obtain ⟨exchange, member, found'⟩ := List.mem_filterMap.mp read
      obtain ⟨m, _, pool, here⟩ := told_take member
      obtain ⟨_, _, step', rest⟩ := whole.pass here
      obtain rfl : user.id = userId := for'.1.symm.trans (of.2.1.symm.trans own)
      exact ⟨user, run_stays rest (quiet.drop _) (step_reads step' found'), of.2.2.trans for'.2⟩

end Run

/-! ### How the requests end -/

/-- What a refresh can fail with where its token is used with care: there is no token, it was not
stored when it was looked up, it has expired, or a library has failed. -/
def Spared (config : Config) (refreshToken : String) (row : RefreshToken) (told : List Exchange) (error : Failure) :
    Prop :=
  refreshToken = "" ∨ (⟨.findRefreshToken (hashRefreshToken config refreshToken), .ok none⟩ : Exchange) ∈ told ∨
    (∃ now, (⟨.now, .ok now⟩ : Exchange) ∈ told ∧ row.expiresAt ≤ now) ∨ ∃ message, error = .internal message

section Run
variable (run : Runs.Run (Service.Step config argon2 faults) start history service)
include run

theorem refresh_spared (started : start.Started) (orderly : Orderly config userId history service)
    {refreshToken : String} {error : Failure} (ends : service.running[index]? = some (.refresh refreshToken, .fail error))
    (found : service.world.db.refreshTokens.find key = some row) (own : row.userId = userId)
    (hash : row.token = hashRefreshToken config refreshToken) :
    Spared config refreshToken row (Process.told index history) error := by
  have quiet := quiet_of_orderly run started orderly
  obtain ⟨session, life, same⟩ := run_follows run started.running (handle_follows config) ends
  cases session with
  | ok => contradiction
  | error error' =>
    cases same
    generalize told : Process.told index history = list at life
    have unincreased : ∀ {owner : Uuid}, (⟨.incrementTokenVersion owner, .ok ()⟩ : Exchange) ∈ list →
        owner ≠ userId := by
      intro owner member
      obtain ⟨_, _, here⟩ := told_at.mp (told ▸ member)
      exact quiet here
    have same : ∀ {row' : RefreshToken} {user : User},
        seen (hashRefreshToken config refreshToken) row' user ∈ list → row'.Later row :=
      fun member => seen_same run started (told ▸ member) found hash
    cases life with
    | missing empty => exact .inl empty
    | unknown => exact .inr (.inl List.mem_cons_self)
    | @revoked row' user _ revoked =>
      have later := same List.mem_cons_self
      obtain ⟨m, pool, here⟩ := told_at.mp (told ▸ (List.mem_cons_self : seen _ row' user ∈ _))
      rw [read_unrevoked run started orderly here (quiet.take m) (later.kept.2.2.1.symm.trans own)] at revoked
      contradiction
    | @reused row' user =>
      have later := same List.mem_cons_self
      exact absurd (later.kept.2.2.1.symm.trans own) (unincreased (List.mem_cons_of_mem _ List.mem_cons_self))
    | @expired row' user now _ unrevoked expired =>
      have later := same List.mem_cons_self
      refine .inr (.inr (.inl ⟨now, List.mem_cons_of_mem _ List.mem_cons_self, ?_⟩))
      rw [later.kept.2.2.2.2]
      exact expired
    | @outdated row' user now _ _ _ outdated =>
      have later := same List.mem_cons_self
      have owner : row'.userId = userId := later.kept.2.2.1.symm.trans own
      obtain ⟨m, pool, here⟩ := told_at.mp (told ▸ (List.mem_cons_self : seen _ row' user ∈ _))
      obtain ⟨before, _, step, _⟩ := run.pass here
      obtain ⟨stored, _, known⟩ := Db.findRefreshToken_some (step_found step).1.symm
      obtain ⟨user', known', current⟩ := run_current before started (quiet.take m) stored owner
      rw [owner, known'] at known
      cases known
      exact absurd current.symm outdated
    | @raced row' user now later bytes =>
      have later := same List.mem_cons_self
      refine absurd (later.kept.2.2.1.symm.trans own) (unincreased ?_)
      simp
    | @failed before op _ failed =>
      have member : (⟨op, .error error⟩ : Exchange) ∈ Process.told index history := by
        rw [told]
        exact List.mem_append_right _ List.mem_cons_self
      rcases told_error run started.running ends member with
        internal | ⟨existingId, data, rotates, forbidden⟩ | ⟨_, other⟩
      · exact .inr (.inr (.inr internal))
      · rw [failed existingId data rotates] at forbidden
        contradiction
      · contradiction

end Run

/-- No false alarms. However the requests interleave, and whatever others ask for, a user whose
tokens are each presented by one request and who does not log out everywhere is not logged out by
anybody: the user stays as the user was, every token has the user's version, a row is revoked only
through a request that came with its token, and a refresh is never refused as a reuse, nor because
its token was revoked or is outdated. -/
theorem careful_spared (run : Runs.Run (Service.Step config argon2 faults) start history service)
    (started : start.Started) (careful : service.Careful config userId) :
    (∀ user, start.world.db.users.find userId = some user → service.world.db.users.find userId = some user) ∧
      (∀ row ∈ service.world.db.refreshTokens.rows, row.userId = userId →
        (∃ user, service.world.db.users.find userId = some user ∧ row.tokenVersion = user.tokenVersion) ∧
          (row.revoked = true → ∃ (index : Nat) (endpoint : Endpoint) (rest : Process Failure Op Op.Answer Response),
            service.running[index]? = some (endpoint, rest) ∧ endpoint.presents config = some row.token)) ∧
      ∀ (index : Nat) (refreshToken : String) (error : Failure),
        service.running[index]? = some (.refresh refreshToken, .fail error) →
        ∀ row ∈ service.world.db.refreshTokens.rows, row.userId = userId →
          row.token = hashRefreshToken config refreshToken →
          Spared config refreshToken row (Process.told index history) error := by
  have orderly : Orderly config userId history service := careful.orderly run
  have quiet := quiet_of_orderly run started orderly
  refine ⟨fun user known => run_stays run quiet known, fun row member own => ⟨?_, fun revoked => ?_⟩, ?_⟩
  · exact run_current run started quiet (Table.find_of_mem member) own
  · have found := Table.find_of_mem member
    have spent := revoked_spent run started.refreshTokens quiet found own revoked
    obtain ⟨n, index, pool, op, answer, endpoint, rest, here, _, there, brings⟩ :=
      spent_brings run started.running found spent
    obtain ⟨_, _, step, after⟩ := run.pass here
    obtain ⟨rest', kept⟩ := run_request_kept (.head step after) there
    exact ⟨index, endpoint, rest', kept, Endpoint.brings_presents brings⟩
  · intro index refreshToken error ends row member own hash
    exact refresh_spared run started orderly ends (Table.find_of_mem member) own hash

end Holders

/-- A registration and a refresh: each token is presented once. -/
theorem careful_spared_sample : ∃ service : Service, service.Careful Sample.config Sample.userId ∧
    service.world.db.refreshTokens.rows.map RefreshToken.revoked = [true, false] ∧
      ∀ row ∈ service.world.db.refreshTokens.rows, ∃ user,
        service.world.db.users.find Sample.userId = some user ∧ row.tokenVersion = user.tokenVersion := by
  have happens : ∃ played, Sample.plays Sample.start (Sample.registration ++ Sample.alone 1 6 (.refresh "r")) =
      some played ∧ played.2.running.map Prod.fst = [.register Sample.dto, .refresh "r"] ∧
      played.2.world.db.refreshTokens.rows.map RefreshToken.revoked = [true, false] ∧
      ∀ row ∈ played.2.world.db.refreshTokens.rows, row.userId = Sample.userId :=
    ⟨_, rfl, rfl, rfl, by decide⟩
  obtain ⟨⟨history, service⟩, plays, requests, revoked, owned⟩ := happens
  have only : ∀ {i : Nat} {endpoint : Endpoint} {rest : Process Failure Op Op.Answer Response} {token : String},
      service.running[i]? = some (endpoint, rest) → endpoint.presents Sample.config = some token → i = 1 := by
    intro i endpoint rest token there presents
    have same : (service.running.map Prod.fst)[i]? = some endpoint := by
      rw [List.getElem?_map, there]
      rfl
    rw [requests] at same
    match i with
    | 0 =>
      cases same
      contradiction
    | 1 => rfl
    | i + 2 => contradiction
  have careful : service.Careful Sample.config Sample.userId := by
    refine ⟨fun there there' _ _ presents presents' => (only there presents).trans (only there' presents').symm, ?_⟩
    intro entry member
    have asked : entry.1 ∈ service.running.map Prod.fst := List.mem_map_of_mem member
    rw [requests] at asked
    rcases List.mem_pair.mp asked with register | refresh
    · rw [register]
      exact nofun
    · rw [refresh]
      exact nofun
  obtain ⟨_, rows, _⟩ := careful_spared (Sample.plays_run plays) Sample.started careful
  exact ⟨service, careful, revoked, fun row member => (rows row member (owned row member)).1⟩

end Stellance.Auth
