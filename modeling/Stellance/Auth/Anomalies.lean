import Stellance.Auth.Serializability

/-! Turns on their own. Nobody who has the tables for himself meets a rotation that fails or a
user half logged out, so a run that has one of them is not the doing of turns. -/
namespace Stellance.Auth
open AuthService
open Process hiding await
open Backend (Uuid UserRole)

section Turns
variable {config : Config} {argon2 : String → String → Bool} {start service : Service}
  {history : List (Service × Occurrence)} {index : Nat} {db db' : Db} {key userId : Uuid}
  {row row' : RefreshToken} {user : User} {token : String} {drawn drawn' told : List Exchange}
  {endpoint : Endpoint} {result : Except Failure Response} {op : Op} {answer : Except Failure op.Answer}

/-! ### One operation -/

theorem alone_executes (alone : Alone (db, drawn) op answer (db', drawn')) :
    Executes db op answer db' ∨ draws ⟨op, answer⟩ = true ∧ db' = db := by
  cases alone with
  | executed executed => exact .inl executed
  | drawn draws => exact .inr ⟨draws, rfl⟩

theorem answers_grows (answers : Answers Alone (db, drawn) told (db', drawn')) : db.Grows db' := by
  refine answers.invariant (I := fun w => db.Grows w.1) ?_ (.refl db)
  rintro ⟨db', _⟩ op answer ⟨db'', _⟩ alone grows
  rcases alone_executes alone with executed | ⟨_, rfl⟩
  · exact grows.trans (executes_grows executed)
  · exact grows

theorem alone_found {found : Option (RefreshToken × User)}
    (alone : Alone (db, drawn) (.findRefreshToken token) (.ok found) (db', drawn')) :
    found = db.findRefreshToken token ∧ db' = db := by
  rcases alone_executes alone with executed | ⟨draws, _⟩
  · cases executed
    exact ⟨rfl, rfl⟩
  · contradiction

theorem answers_seen (answers : Answers Alone (db, drawn) told (db', drawn'))
    (member : seen token row user ∈ told) : ∃ current, db'.users.find row.userId = some current := by
  obtain ⟨before, after, rfl⟩ := List.append_of_mem member
  obtain ⟨⟨here, _⟩, ⟨next, _⟩, _, alone, rest⟩ := answers.cut
  obtain ⟨found, rfl⟩ := alone_found alone
  obtain ⟨_, _, known⟩ := Db.findRefreshToken_some found.symm
  obtain ⟨current, there, _⟩ := (answers_grows rest).users row.userId user known
  exact ⟨current, there⟩

/-! ### One turn -/

/-- What a request is told in its turn it could be told. -/
theorem answers_clean (session : endpoint.InSession) (answers : Answers Alone (db, drawn) told (db', drawn'))
    (leads : (handle config endpoint).Leads told (ended result)) : Clean endpoint told := by
  intro op error member
  obtain ⟨before, after, rfl⟩ := List.append_of_mem member
  obtain ⟨⟨here, _⟩, ⟨next, _⟩, first, alone, _⟩ := answers.cut
  obtain ⟨_, waits⟩ := leads.cut
  have script := (waits.follows (handle_follows config endpoint)).1
  rw [List.nil_append] at script
  have settled := script.settled session
  rcases alone_executes alone with executed | ⟨draws, _⟩
  · generalize given : Except.error error = answer at executed
    cases executed with
    | refusedUser => exact absurd rfl (settled.1 _)
    | raced raced =>
      cases given
      obtain rfl := Db.rotate_forbidden raced
      exact .inl ⟨_, _, rfl, rfl⟩
    | noUser _ absent =>
      refine .inr ⟨_, rfl, ?_⟩
      cases script with
      | logoutAll => rfl
      | idle idle => contradiction
      | reused =>
        obtain ⟨current, there⟩ := answers_seen first List.mem_cons_self
        exact nomatch absent.symm.trans there
      | @raced refreshToken _ row user =>
        obtain ⟨current, there⟩ := answers_seen first (List.mem_append_left _ List.mem_cons_self)
        exact nomatch absent.symm.trans there
    | _ => contradiction
  · cases op <;> contradiction

/-- A turn is the life of its request, or nothing. -/
theorem turn_life (sessions : SessionsOver config argon2 start history service)
    (turn : Turn config history service db index db') : ∃ endpoint result,
      service.running[index]? = some (endpoint, ended result) ∧
        (db' = db ∧ Silent endpoint result ∨ ∃ before commit after drawn drawn',
          Answers Alone (db, drawn) (before ++ commit :: after) (db', drawn') ∧
          Life config endpoint before commit after result) := by
  obtain ⟨endpoint, result, rest, found, completes⟩ := turn
  have session := sessions.inSession index endpoint _ found
  obtain ⟨told, answers, leads⟩ := completes.answers
  have ends := follows_ended.mp (leads.follows (handle_follows config endpoint))
  refine ⟨endpoint, result, found, ?_⟩
  rcases life_of_ends session ends (answers_clean session answers leads) with
    ⟨rfl, silent⟩ | ⟨before, commit, after, rfl, life⟩
  · cases answers
    exact .inl ⟨rfl, silent⟩
  · exact .inr ⟨before, commit, after, _, rest, answers, life⟩

/-! ### What turns keep -/

/-- The exchange leaves the tables alone. -/
def stays : Exchange → Bool
  | ⟨.findRefreshToken _, _⟩ | ⟨.now, _⟩ | ⟨.randomBytes, _⟩ | ⟨.sign .., _⟩ | ⟨_, .error _⟩ => true
  | _ => false

theorem answers_stay (answers : Answers Alone (db, drawn) told (db', drawn')) (stay : told.all stays = true) :
    db' = db := by
  generalize start : (db, drawn) = w at answers
  generalize ends : (db', drawn') = last at answers
  induction answers generalizing db drawn with
  | nil =>
    cases start
    cases ends
    rfl
  | @cons _ between _ op answer rest alone _ ih =>
    cases start
    cases ends
    obtain ⟨here, later⟩ := Bool.and_eq_true_iff.mp stay
    obtain ⟨next, left⟩ := between
    obtain rfl := ih later rfl rfl
    rcases alone_executes alone with executed | ⟨_, same⟩
    · cases executed with
      | foundToken | refusedUser | raced | noUser => rfl
      | _ => contradiction
    · exact same

theorem answers_logOut (answers : Answers Alone (db, drawn)
    [⟨.incrementTokenVersion userId, .ok ()⟩, ⟨.revokeAll userId, .ok ()⟩] (db', drawn')) :
    ∃ between, db.incrementTokenVersion userId = some between ∧
      db' = between.revokeMany (·.userId = userId) none := by
  cases answers with
  | @cons _ between _ _ _ _ first rest =>
    obtain ⟨between, _⟩ := between
    cases rest with
    | cons second done =>
      cases done
      rcases alone_executes first with incremented | ⟨draws, _⟩
      · rcases alone_executes second with swept | ⟨draws, _⟩
        · cases incremented with
          | incremented incremented => exact ⟨between, incremented, executes_swept swept⟩
        · contradiction
      · contradiction

/-- Whoever has an unrevoked row has the version of the start. -/
def Current (start db : Db) : Prop :=
  ∀ key row, db.refreshTokens.find key = some row → row.revoked = false →
    db.users.find row.userId = start.users.find row.userId

theorem Current.touched {begun : Db} (current : Current begun db) (touches : db.Touches none db')
    (users : db'.users = db.users) : Current begun db' := by
  intro key row' found unrevoked
  obtain ⟨old, row, there, sameUser, _, kept⟩ := touches.ancestor found
  rw [users, sameUser]
  exact current old row there (kept unrevoked)

theorem Current.loggedOut {begun between : Db} (current : Current begun db)
    (incremented : db.incrementTokenVersion userId = some between) :
    Current begun (between.revokeMany (·.userId = userId) none) := by
  obtain ⟨_, _, _, others, tokens⟩ := Db.incrementTokenVersion_some incremented
  intro key row found unrevoked
  rw [Db.revokeMany_find] at found
  obtain ⟨old, there, same⟩ := Option.map_eq_some_iff.mp found
  rw [tokens] at there
  split at same
  · subst same
    contradiction
  · rename_i kept
    subst same
    have other : old.userId ≠ userId := fun same => kept ⟨by simpa using same, unrevoked⟩
    exact (others old.userId other).trans (current key old there unrevoked)

/-- What a refresh has read first in its turn. -/
theorem answers_reads {rest : List Exchange}
    (answers : Answers Alone (db, drawn) (seen token row user :: rest) (db', drawn')) :
    db.findRefreshToken token = some (row, user) := by
  cases answers with
  | @cons _ between _ _ _ _ first _ =>
    obtain ⟨between, _⟩ := between
    exact (alone_found first).1.symm

theorem life_current {begun : Db} {before after : List Exchange} {commit : Exchange}
    (answers : Answers Alone (db, drawn) (before ++ commit :: after) (db', drawn'))
    (life : Life config endpoint before commit after result) (current : Current begun db) :
    Current begun db' := by
  cases life with
  | unknown | revoked | expired | outdated | unknownUser =>
    rw [answers_stay answers rfl]
    exact current
  | @reused refreshToken row user =>
    have answers : Answers Alone (db, drawn) ([seen (hashRefreshToken config refreshToken) row user] ++
      [⟨.incrementTokenVersion row.userId, .ok ()⟩, ⟨.revokeAll row.userId, .ok ()⟩]) (db', drawn') := answers
    obtain ⟨⟨here, _⟩, first, rest⟩ := answers.split
    obtain rfl := answers_stay first rfl
    obtain ⟨between, incremented, rfl⟩ := answers_logOut rest
    exact current.loggedOut incremented
  | @raced refreshToken row user now later bytes error =>
    have answers : Answers Alone (db, drawn)
      ((prepared (hashRefreshToken config refreshToken) row user now bytes later ++
        [⟨.rotate row.id (successor config row user bytes later), .error error⟩]) ++
      [⟨.incrementTokenVersion row.userId, .ok ()⟩, ⟨.revokeAll row.userId, .ok ()⟩]) (db', drawn') := answers
    obtain ⟨⟨here, _⟩, first, rest⟩ := answers.split
    obtain rfl := answers_stay first rfl
    obtain ⟨between, incremented, rfl⟩ := answers_logOut rest
    exact current.loggedOut incremented
  | rotated given able =>
    obtain ⟨stored, _, owner⟩ := Db.findRefreshToken_some (answers_reads answers)
    obtain ⟨⟨here, _⟩, ⟨next, _⟩, first, alone, rest⟩ := answers.cut
    obtain rfl := answers_stay first rfl
    obtain rfl := answers_stay rest rfl
    rcases alone_executes alone with executed | ⟨draws, _⟩
    · obtain ⟨_, rotated⟩ := executes_rotated executed
      have touches := Db.Touches.rotated stored (Db.rotate_ok rotated stored) rfl able.current
      exact current.touched touches (Db.rotate_users rotated)
    · contradiction
  | revoke =>
    obtain ⟨⟨here, _⟩, ⟨next, _⟩, first, alone, rest⟩ := answers.cut
    obtain rfl := answers_stay first rfl
    obtain rfl := answers_stay rest rfl
    rcases alone_executes alone with executed | ⟨draws, _⟩
    · rw [executes_revoked executed]
      exact current.touched (.revoked _) rfl
    · contradiction
  | logoutAll =>
    obtain ⟨between, incremented, rfl⟩ := answers_logOut answers
    exact current.loggedOut incremented

/-- A refresh that has the tables for itself does not race. -/
theorem answers_unraced {now later : Nat} {bytes : String} {data : NewToken} {error : Failure}
    {rest : List Exchange} (stored : db.refreshTokens.find row.id = some row)
    (unrevoked : row.revoked = false) : ¬ Answers Alone (db, drawn)
      (prepared token row user now bytes later ++ [⟨.rotate row.id data, .error error⟩,
        ⟨.incrementTokenVersion row.userId, .ok ()⟩] ++ rest) (db', drawn') := by
  intro answers
  rw [List.append_assoc] at answers
  obtain ⟨⟨here, _⟩, ⟨next, _⟩, first, alone, _⟩ := answers.cut
  obtain rfl := answers_stay first rfl
  rcases alone_executes alone with executed | ⟨draws, _⟩
  · obtain ⟨_, raced⟩ := executes_raced executed
    obtain ⟨revoked, _⟩ := Db.rotate_error raced stored
    rw [unrevoked] at revoked
    contradiction
  · contradiction

/-! ### All turns -/

section Order
variable (sessions : SessionsOver config argon2 start history service)
include sessions

theorem turn_grows (turn : Turn config history service db index db') : db.Grows db' := by
  obtain ⟨_, _, _, ⟨rfl, _⟩ | ⟨_, _, _, _, _, answers, _⟩⟩ := turn_life sessions turn
  · exact .refl _
  · exact answers_grows answers

theorem turn_current {begun : Db} (turn : Turn config history service db index db')
    (current : Current begun db) : Current begun db' := by
  obtain ⟨_, _, _, ⟨rfl, _⟩ | ⟨_, _, _, _, _, answers, life⟩⟩ := turn_life sessions turn
  · exact current
  · exact life_current answers life current

/-- Every request has its turn, between what came before and what comes after. -/
theorem serializable_turn (serializable : Serializable config start history service)
    (inside : index < service.running.length) : ∃ db db', Current start.world.db db ∧
      Turn config history service db index db' ∧ db'.Grows service.world.db := by
  obtain ⟨turns, perm, run⟩ := serializable
  obtain ⟨⟨db, _⟩, member, rfl⟩ := List.mem_map.mp (perm.mem_iff.mpr (List.mem_range.mpr inside))
  obtain ⟨earlier, later, rfl⟩ := List.append_of_mem member
  obtain ⟨_, first, rest⟩ := run.split
  obtain ⟨rfl, db', turn, last⟩ := rest.first
  refine ⟨_, db', ?_, turn, ?_⟩
  · exact first.invariant (fun holds turn => turn_current sessions turn holds) fun _ _ _ _ => rfl
  · have grows : db'.Grows db' → db'.Grows service.world.db :=
      last.invariant fun holds turn => holds.trans (turn_grows sessions turn)
    exact grows (.refl db')

/-- A row that a request has found under a hash in its turn is that row to the end. -/
theorem serializable_row {earlier : Db} {other : Uuid} (grows : earlier.Grows service.world.db)
    (stored : earlier.refreshTokens.find key = some row)
    (there : service.world.db.refreshTokens.find other = some row')
    (hash : row.token = row'.token) : row.Later row' := by
  obtain ⟨last, found, later⟩ := grows.tokens key row stored
  have linked := (over_during sessions (List.append_nil history).symm sessions.run .refl).linked
  have same : key = other := linked.hashes key other last row' found there (later.kept.2.1.trans hash)
  subst same
  obtain rfl := Option.some.inj (found.symm.trans there)
  exact later

/-- A rotation that fails is that of a refresh which goes on to log its user out. -/
theorem raced_life {existingId : Uuid} {data : NewToken} {error : Failure}
    (inside : index < service.running.length)
    (member : (⟨.rotate existingId data, .error error⟩ : Exchange) ∈ Process.told index history) :
    ∃ refreshToken result, service.running[index]? = some (.refresh refreshToken, ended (.error result)) ∧
      Failure.isForbidden result = true := by
  obtain ⟨endpoint, result, found, ⟨none', _⟩ | ⟨_, _, _, told, life⟩⟩ := over_life sessions inside
  · rw [none'] at member
    contradiction
  · rw [told] at member
    cases life with
    | @raced refreshToken _ _ _ _ _ failure _ _ forbidden => exact ⟨refreshToken, failure, found, forbidden⟩
    | _ => simp [prepared, seen] at member

theorem falseAlarm_unserializable (serializable : Serializable config start history service) :
    ¬ FalseAlarm history := by
  rintro ⟨n, pool, index, existingId, data, answer, row, here, stored, revoked, unreplaced⟩
  obtain ⟨refreshToken, _, _, _, _, _, _, ⟨left, running⟩, _, rfl, rfl, _, hash, _, there, latest⟩ :=
    rotate_reads sessions.run sessions.idle here
  obtain rfl := Option.some.inj (stored.symm.trans there)
  obtain ⟨_, between, step, after⟩ := sessions.run.pass here
  obtain ⟨left', kept⟩ := run_request_kept (.head step after) running
  have inside : index < service.running.length := (List.getElem?_eq_some_iff.mp kept).1
  cases answer with
  | ok =>
    obtain ⟨_, rotated⟩ := executes_rotated (step_executes step id nofun)
    have unrevoked := (Db.rotate_ok rotated stored).unrevoked
    rw [unrevoked] at revoked
    contradiction
  | error error =>
    have member : (⟨.rotate _ _, .error error⟩ : Exchange) ∈ Process.told index history :=
      told_at.mpr ⟨n, _, here⟩
    obtain ⟨refreshToken', failure, found, forbidden⟩ := raced_life sessions inside member
    obtain ⟨same, _⟩ := Prod.mk.inj (Option.some.inj (kept.symm.trans found))
    cases same
    -- the row is revoked for good, so it is not replaced at the end either
    obtain ⟨last, final, latest'⟩ := ((step_grows step).trans (run_grows after)).tokens _ _ stored
    obtain rfl := latest'.final revoked
    have hash := latest.kept.2.1.trans hash
    obtain ⟨db, db', _, turn, onwards⟩ := serializable_turn sessions serializable inside
    have grows := (turn_grows sessions turn).trans onwards
    obtain ⟨_, _, found', lived⟩ := turn_life sessions turn
    obtain ⟨same, ends⟩ := Prod.mk.inj (Option.some.inj (found.symm.trans found'))
    subst same
    obtain rfl := ended_injective ends
    rcases lived with ⟨_, silent⟩ | ⟨_, _, _, _, _, answers, life⟩
    · cases silent
      contradiction
    · cases life with
      | reused _ revoked' replaced =>
        obtain ⟨stored', hash', _⟩ := Db.findRefreshToken_some (answers_reads answers)
        have later := serializable_row sessions grows stored' final (hash'.trans hash.symm)
        rw [← later.final revoked', unreplaced] at replaced
        contradiction
      | @raced refreshToken row' user now later bytes error given able =>
        obtain ⟨stored', _⟩ := Db.findRefreshToken_some (answers_reads answers)
        exact absurd answers (answers_unraced stored' able.unrevoked)
      | _ => contradiction

/-- A refresh that reads a row that could be exchanged but for the version ends with that. -/
theorem outdated_life {now : Nat} {rest : List Exchange} (inside : index < service.running.length)
    (told : Process.told index history = seen token row user :: ⟨.now, .ok now⟩ :: rest)
    (unrevoked : row.revoked = false) (unexpired : now < row.expiresAt)
    (outdated : user.tokenVersion ≠ row.tokenVersion) :
    ∃ refreshToken, service.running[index]? = some (.refresh refreshToken,
      ended (.error (.unauthorized "Refresh token invalid"))) ∧
        token = hashRefreshToken config refreshToken := by
  obtain ⟨endpoint, result, found, ⟨none', _⟩ | ⟨_, _, _, told', life⟩⟩ := over_life sessions inside
  · rw [none'] at told
    contradiction
  · have same := told.symm.trans told'
    cases life with
    | outdated =>
      obtain ⟨first, _⟩ := List.cons_eq_cons.mp same
      cases first
      exact ⟨_, found, rfl⟩
    | expired given unrevoked' expired =>
      obtain ⟨first, rest'⟩ := List.cons_eq_cons.mp same
      obtain ⟨second, _⟩ := List.cons_eq_cons.mp rest'
      cases first
      cases second
      exact absurd expired (Nat.not_le.mpr unexpired)
    | rotated given able | raced given able =>
      obtain ⟨first, _⟩ := List.cons_eq_cons.mp same
      cases first
      exact absurd able.current outdated
    | reused given revoked =>
      obtain ⟨first, _⟩ := List.cons_eq_cons.mp same
      cases first
      rw [unrevoked] at revoked
      contradiction
    | _ => simp [seen] at same

theorem halfLoggedOut_unserializable (serializable : Serializable config start history service) :
    ¬ HalfLoggedOut start history := by
  rintro ⟨index, token, row, user, now, rest, before, told, unrevoked, unexpired, outdated, known, since⟩
  have inside : index < service.running.length := by
    by_contra outside
    have absent := run_told_absent sessions.run (Nat.le_of_not_lt outside)
    exact nomatch absent.symm.trans told
  obtain ⟨refreshToken, found, rfl⟩ := outdated_life sessions inside told unrevoked unexpired outdated
  obtain ⟨hash, _, ⟨last, there, latest⟩, _⟩ := seen_known sessions.run (told ▸ List.mem_cons_self :
    seen (hashRefreshToken config refreshToken) row user ∈ Process.told index history)
  obtain ⟨db, db', current, turn, onwards⟩ := serializable_turn sessions serializable inside
  have grows := (turn_grows sessions turn).trans onwards
  obtain ⟨_, _, found', lived⟩ := turn_life sessions turn
  obtain ⟨same, ends⟩ := Prod.mk.inj (Option.some.inj (found.symm.trans found'))
  subst same
  have same := ended_injective ends
  rcases lived with ⟨_, silent⟩ | ⟨_, _, _, _, _, answers, life⟩
  · cases silent with
    | missing => simp [Failure.unauthorized] at same
  · cases life with
    | @outdated _ row' user' _ _ unrevoked' _ outdated' =>
      obtain ⟨stored, hash', known'⟩ := Db.findRefreshToken_some (answers_reads answers)
      have later := serializable_row sessions grows stored there (hash'.trans (latest.kept.2.1.trans hash).symm)
      -- nobody was logged out before the turn
      rw [current row'.id row' stored unrevoked'] at known'
      have owner : row'.userId = row.userId := later.kept.2.2.1.symm.trans latest.kept.2.2.1
      have version : row'.tokenVersion = row.tokenVersion :=
        later.kept.2.2.2.1.symm.trans latest.kept.2.2.2.1
      rw [owner, known] at known'
      cases known'
      exact outdated' (since.symm.trans version.symm)
    | raced _ _ forbidden =>
      cases same
      contradiction
    | _ => simp [Failure.unauthorized, Failure.forbidden] at same

end Order

end Turns

namespace Sample

def finished : Endpoint × Process Failure Op Op.Answer Response → Bool
  | (.refresh _, .done _) | (.refresh _, .fail _) | (.revokeRefreshToken _, .done _)
  | (.logoutAll _, .done _) => true
  | _ => false

/-- Requests of sessions after the registration. -/
theorem sessionsOver {first second : List (Service × Occurrence) × Service}
    {moves : List (Process.Move Endpoint)} (opens : plays start registration = some first)
    (played : plays ⟨first.2.world, []⟩ moves = some second)
    (done : second.2.running.all finished = true) :
    SessionsOver config argon2 ⟨first.2.world, []⟩ second.1 second.2 := by
  have finishes : ∀ (index : Nat) endpoint rest, second.2.running[index]? = some (endpoint, rest) →
      finished (endpoint, rest) = true :=
    fun _ _ _ found => List.all_eq_true.mp done _ (List.mem_of_getElem? found)
  refine ⟨plays_run played, rfl, ⟨_, _, _, _, _, plays_run opens, started, rfl⟩, ?_, ?_⟩
  · intro index endpoint rest found
    have ends := finishes index endpoint rest found
    unfold finished at ends
    split at ends <;> first | contradiction | rename_i same; cases same; trivial
  · intro index endpoint rest found
    have ends := finishes index endpoint rest found
    unfold finished at ends
    split at ends <;> rename_i same
    · cases same; exact ⟨.ok _, rfl⟩
    · cases same; exact ⟨.error _, rfl⟩
    · cases same; exact ⟨.ok _, rfl⟩
    · cases same; exact ⟨.ok _, rfl⟩
    · contradiction

/-- A refresh that has read its row, and a logout before it exchanges the token. -/
def alarming : List (Process.Move Endpoint) :=
  alone 0 4 (.refresh token) ++ alone 1 1 (.revokeRefreshToken token) ++ List.replicate 3 (.serve 0)

/-- Two refreshes with one token. -/
def racing : List (Process.Move Endpoint) :=
  alone 0 1 (.refresh token) ++ alone 1 6 (.refresh token) ++ List.replicate 6 (.serve 0)

/-- No rotation meets a revoked row that is not replaced, and no row is read with another version
than that of its user. -/
def smooth (point : Service × Occurrence) : Bool :=
  match point.2 with
  | .served _ (.rotate existingId _) _ =>
    (point.1.world.db.refreshTokens.find existingId).all fun row =>
      !row.revoked || row.replacedByTokenId.isSome
  | .served _ (.findRefreshToken _) (.ok (some (row, user))) => user.tokenVersion = row.tokenVersion
  | _ => true

end Sample

/-- A logout between the reading and the exchange of a token raises the alarm, and no order of
the two requests does. -/
theorem sessions_serializable_fails : ¬ ∀ (start service : Service) (history : List (Service × Occurrence)),
    SessionsOver Sample.config Sample.argon2 start history service →
      Serializable Sample.config start history service := by
  intro always
  have happens : ∃ first, Sample.plays Sample.start Sample.registration = some first ∧
      ∃ second, Sample.plays ⟨first.2.world, []⟩ Sample.alarming = some second ∧
      second.2.running.all Sample.finished = true ∧
      ∃ pool event, second.1[7]? = some (pool, event) ∧ ∃ data answer,
        event = .served 0 (.rotate (.repeated 0) data) answer ∧
        ∃ row, pool.world.db.refreshTokens.find (.repeated 0) = some row ∧
          row.revoked = true ∧ row.replacedByTokenId = none :=
    ⟨_, rfl, _, rfl, rfl, _, _, rfl, _, _, rfl, _, rfl, rfl, rfl⟩
  obtain ⟨first, opens, second, played, finished, pool, _, here, data, answer, rfl, row, found,
    revoked, unreplaced⟩ := happens
  have sessions := Sample.sessionsOver opens played finished
  exact falseAlarm_unserializable sessions (always _ _ _ sessions)
    ⟨7, pool, 0, _, data, answer, row, here, found, revoked, unreplaced⟩

/-- Requests of sessions have what they would have in some order, one after another, unless a
rotation meets its row revoked by a logout or a refresh reads a row of a user half logged out;
and then they have not. -/
theorem sessions_serializable_iff {config : Config} {argon2 : String → String → Bool}
    {start service : Service} {history : List (Service × Occurrence)}
    (sessions : SessionsOver config argon2 start history service) :
    Serializable config start history service ↔ ¬ FalseAlarm history ∧ ¬ HalfLoggedOut start history :=
  ⟨fun serializable => ⟨falseAlarm_unserializable sessions serializable,
    halfLoggedOut_unserializable sessions serializable⟩,
  fun ⟨unalarmed, whole⟩ => over_serializable sessions unalarmed whole⟩

/-- Two refreshes that race for one token could have come one after the other. -/
theorem sessions_serializable_iff_sample : ∃ (start service : Service) (history : List (Service × Occurrence)),
    service.running.map Prod.fst = [.refresh Sample.token, .refresh Sample.token] ∧
      Serializable Sample.config start history service := by
  have happens : ∃ first, Sample.plays Sample.start Sample.registration = some first ∧
      ∃ second, Sample.plays ⟨first.2.world, []⟩ Sample.racing = some second ∧
      second.2.running.all Sample.finished = true ∧
      second.2.running.map Prod.fst = [.refresh Sample.token, .refresh Sample.token] ∧
      second.1.all Sample.smooth = true :=
    ⟨_, rfl, _, rfl, rfl, rfl, rfl⟩
  obtain ⟨first, opens, second, played, finished, requests, smooth⟩ := happens
  refine ⟨_, second.2, second.1, requests,
    (sessions_serializable_iff (Sample.sessionsOver opens played finished)).mpr ⟨?_, ?_⟩⟩
  · rintro ⟨n, pool, index, existingId, data, answer, row, here, found, revoked, unreplaced⟩
    have checked := List.all_eq_true.mp smooth _ (List.mem_of_getElem? here)
    simp [Sample.smooth, found, revoked, unreplaced] at checked
  · rintro ⟨index, token, row, user, now, rest, _, told, _, _, outdated, _⟩
    obtain ⟨_, _, here⟩ := told_at.mp (told ▸ List.mem_cons_self :
      seen token row user ∈ Process.told index second.1)
    have checked := List.all_eq_true.mp smooth _ (List.mem_of_getElem? here)
    exact outdated (of_decide_eq_true checked)

end Stellance.Auth
