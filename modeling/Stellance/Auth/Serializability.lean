import Stellance.Auth.Turns

/-! Interleaved requests of sessions do what they would have done in turns, but for two
things: a rotation that takes a plain revocation for reuse, and a refresh that reads between
the two writes of a logout from everywhere. -/
namespace Stellance.Auth
open AuthService
open Process hiding await
open Backend (Uuid UserRole)

/-- The exchange raises the version of the user. -/
def raises (userId : Uuid) : Exchange → Bool
  | ⟨.incrementTokenVersion other, .ok _⟩ => userId = other
  | _ => false

/-- The exchange revokes all rows of the user. -/
def sweeps (userId : Uuid) : Exchange → Bool
  | ⟨.revokeAll other, .ok _⟩ => userId = other
  | _ => false

section Sessions
variable {config : Config} {argon2 : String → String → Bool} {start service service' : Service}
  {history earlier rest : List (Service × Occurrence)} {point : Service × Occurrence}
  {occurrence : Occurrence} {index : Nat} {db db' db₀ : Db} {key userId : Uuid} {row row' : RefreshToken}
  {user : User} {token : String}

/-! ### The tables in the course of the requests -/

/-- Without a login, every row goes back to one of its user and version. -/
theorem Db.Touches.ancestor (touches : db.Touches none db') (found : db'.refreshTokens.find key = some row') :
    ∃ old row, db.refreshTokens.find old = some row ∧ row'.userId = row.userId ∧
      row'.tokenVersion = row.tokenVersion ∧ (row'.revoked = false → row.revoked = false) := by
  have later : ∀ {old : Uuid} {row : RefreshToken}, db.refreshTokens.find old = some row → row.Later row' →
      ∃ old row, db.refreshTokens.find old = some row ∧ row'.userId = row.userId ∧
        row'.tokenVersion = row.tokenVersion ∧ (row'.revoked = false → row.revoked = false) := by
    intro old row there later
    obtain ⟨_, _, sameUser, sameVersion, _⟩ := later.kept
    refine ⟨old, row, there, sameUser, sameVersion, fun unrevoked => ?_⟩
    by_contra revoked
    rw [later.final (by simpa using revoked)] at unrevoked
    contradiction
  cases touches.origin found with
  | kept there later' | replaced there later' => exact later there later'
  | issued =>
    cases touches with
    | same same => exact later (same ▸ found) (.refl row')
    | @rotated row rotatedId data _ stored rotates sameUser sameVersion =>
      rw [rotates.find] at found
      split at found
      · cases found
        exact ⟨row.id, row, stored, sameUser, sameVersion, fun _ => rotates.unrevoked⟩
      · split at found
        · cases found
          exact later stored (.inr ⟨rotates.unrevoked, _, rfl⟩)
        · exact later found (.refl row')
    | revoked where' =>
      obtain ⟨row, there, later'⟩ := Db.revokeMany_origin found
      exact later there later'

/-- The tables where users were logged out and their rows revoked this often since. -/
structure During (db₀ db : Db) (out swept : Uuid → Nat) : Prop where
  linked : db.Linked
  users : db.users = raised db₀.users out
  bounded : ∀ key row, db.refreshTokens.find key = some row → ∃ user,
    db₀.users.find row.userId = some user ∧ row.tokenVersion ≤ user.tokenVersion
  revoked : ∀ key row, db.refreshTokens.find key = some row → 0 < swept row.userId → row.revoked = true

theorem During.touched {out swept : Uuid → Nat} (during : During db₀ db out swept)
    (touches : db.Touches none db') (users : db'.users = db.users) : During db₀ db' out swept where
  linked := during.linked.touched touches
  users := users.trans during.users
  bounded := by
    intro key row' found
    obtain ⟨old, row, there, sameUser, sameVersion, _⟩ := touches.ancestor found
    rw [sameUser, sameVersion]
    exact during.bounded old row there
  revoked := by
    intro key row' found some'
    by_contra unrevoked
    obtain ⟨old, row, there, sameUser, _, kept⟩ := touches.ancestor found
    have revoked := during.revoked old row there (sameUser ▸ some')
    rw [kept (by simpa using unrevoked)] at revoked
    contradiction

theorem During.loggedOut {out swept : Uuid → Nat} (during : During db₀ db out swept)
    (incremented : db.incrementTokenVersion userId = some db') :
    During db₀ db' (fun id => out id + if id = userId then 1 else 0) swept := by
  obtain ⟨_, _, _, _, same⟩ := Db.incrementTokenVersion_some incremented
  refine ⟨during.linked.touched (.same same), ?_, same ▸ during.bounded, same ▸ during.revoked⟩
  unfold Db.incrementTokenVersion at incremented
  split at incremented
  · cases incremented
    dsimp only
    rw [during.users, raised_modify]
  · contradiction

theorem During.swept {out swept : Uuid → Nat} (during : During db₀ db out swept) :
    During db₀ (db.revokeMany (·.userId = userId) none) out
      (fun id => swept id + if id = userId then 1 else 0) := by
  have touched := during.touched (.revoked fun row => row.userId = userId) rfl
  refine ⟨touched.linked, touched.users, touched.bounded, fun key row found some' => ?_⟩
  by_cases here : row.userId = userId
  · rw [Db.revokeMany_find] at found
    obtain ⟨old, there, same⟩ := Option.map_eq_some_iff.mp found
    split at same
    · subst same
      rfl
    · rename_i kept
      subst same
      simpa [here] using kept
  · exact touched.revoked key row found (by simpa [here] using some')

/-- No request of a session adds a user or begins another session. -/
theorem Script.settled {endpoint : Endpoint} {told : List Exchange} {op : Op}
    (script : Script config endpoint told op) (session : endpoint.InSession) :
    (∀ data, op ≠ .createUser data) ∧ ∀ data, op ≠ .createRefreshToken data := by
  cases script with
  | idle idle => constructor <;> (rintro data rfl; exact idle)
  | createUser | registered | loggedIn => exact session.elim
  | _ => exact ⟨nofun, nofun⟩

theorem step_during (before : Runs.Run (Service.Step config argon2 False) start earlier service)
    (idle : start.running = []) (during : During db₀ service.world.db
      (fun id => exchanges (raises id) earlier) fun id => exchanges (sweeps id) earlier)
    (session : ∀ (index : Nat) endpoint rest, service.running[index]? = some (endpoint, rest) →
      endpoint.InSession)
    (step : Service.Step config argon2 False service occurrence service') :
    During db₀ service'.world.db (fun id => exchanges (raises id) (earlier ++ [(service, occurrence)]))
      fun id => exchanges (sweeps id) (earlier ++ [(service, occurrence)]) := by
  have touches := step_touches before idle step
  simp only [exchanges_step]
  cases step with
  | start => simpa [Event.exchange] using during
  | @served _ _ index endpoint op _ _ _ found answered =>
    have settled := (run_follows before idle (handle_follows config) found).1.settled
      (session index endpoint _ found)
    cases answered with
    | executed executed =>
      cases executed with
      | createdUser => exact absurd rfl (settled.1 _)
      | createdToken => exact absurd rfl (settled.2 _)
      | rotated rotated =>
        simpa [Event.exchange, raises, sweeps] using during.touched touches (Db.rotate_users rotated)
      | revoked => simpa [Event.exchange, raises, sweeps] using during.touched touches rfl
      | revokedAll => simpa [Event.exchange, raises, sweeps] using during.swept
      | incremented incremented =>
        simpa [Event.exchange, raises, sweeps] using during.loggedOut incremented
      | _ => simpa [Event.exchange, raises, sweeps] using during
    | faulted fault => exact fault.elim
    | _ => simpa [Event.exchange, raises, sweeps] using during
  | outside around =>
    cases around
    simpa [Event.exchange] using during

section Over
variable (sessions : SessionsOver config argon2 start history service)
include sessions

theorem reachable_sound : start.world.db.Linked ∧
    ∀ key row, start.world.db.refreshTokens.find key = some row → ∃ user,
      start.world.db.users.find row.userId = some user ∧ row.tokenVersion ≤ user.tokenVersion := by
  obtain ⟨_, _, _, _, _, run, started, same⟩ := sessions.reachable
  rw [← same]
  exact ⟨(run_sessions run started).1, run_bounded run started.running started.refreshTokens⟩

/-- At every point of the run the tables are those of the start, but for what was logged out,
revoked and rotated. -/
theorem over_during {pool : Service} (cut : history = earlier ++ rest)
    (before : Runs.Run (Service.Step config argon2 False) start earlier pool)
    (after : Runs.Run (Service.Step config argon2 False) pool rest service) :
    During start.world.db pool.world.db (fun id => exchanges (raises id) earlier)
      fun id => exchanges (sweeps id) earlier := by
  induction earlier using List.reverseRecOn generalizing rest pool with
  | nil =>
    obtain rfl := before.eq_of_nil
    obtain ⟨linked, bounded⟩ := reachable_sound sessions
    exact ⟨linked, raised_none.symm, bounded, fun _ _ _ some' => absurd some' (Nat.lt_irrefl 0)⟩
  | append_singleton earlier point ih =>
    obtain ⟨first, step⟩ := before.last
    have whole : history = earlier ++ point :: rest := by simpa using cut
    refine step_during first sessions.idle (ih whole first (.head step after)) ?_ step
    intro index endpoint left found
    obtain ⟨left', there⟩ := run_request_kept (.head step after) found
    exact sessions.inSession index endpoint left' there

/-- The request of an event, and how it ends. -/
theorem over_served {pool : Service} {op : Op} {answer : Except Failure op.Answer}
    (cut : history = earlier ++ (pool, .served index op answer) :: rest) :
    ∃ endpoint result, service.running[index]? = some (endpoint, ended result) ∧ endpoint.InSession ∧
      Script config endpoint (Process.told index earlier) op ∧
      Ends config endpoint (Process.told index history) result := by
  have run := sessions.run
  obtain ⟨here, same⟩ := cut_position cut
  obtain ⟨endpoint, next, found, script⟩ := run_script run sessions.idle (handle_follows config) here
  obtain ⟨_, _, step, after⟩ := run.pass here
  obtain ⟨left, there⟩ := run_request_kept (.head step after) found
  obtain ⟨result, rfl⟩ := sessions.finished index endpoint left there
  have ends := follows_ended.mp (run_follows run sessions.idle (handle_follows config) there)
  rw [same] at script
  exact ⟨endpoint, result, there, sessions.inSession index endpoint _ there, script, ends⟩

theorem over_clean {endpoint : Endpoint} {result : Except Failure Response}
    (found : service.running[index]? = some (endpoint, ended result)) :
    Clean endpoint (Process.told index history) := by
  intro op error member
  obtain ⟨n, pool, here⟩ := told_at.mp member
  obtain ⟨endpoint', next, there, script⟩ := run_script sessions.run sessions.idle (handle_follows config) here
  obtain ⟨before, _, step, after⟩ := sessions.run.pass here
  obtain ⟨left, kept⟩ := run_request_kept (.head step after) there
  obtain ⟨rfl, _⟩ := Prod.mk.inj (Option.some.inj (found.symm.trans kept))
  have session := sessions.inSession index endpoint _ found
  have settled := script.settled session
  dsimp only at here step
  cases step with
  | served found answered =>
    generalize given : Except.error error = answer at answered
    cases answered with
    | executed executed =>
      cases executed with
      | refusedUser => exact absurd rfl (settled.1 _)
      | raced raced =>
        cases given
        obtain ⟨_, _, row, _, _, _, current, _, _, rfl, _, _, _, _, there, _⟩ :=
          rotate_reads sessions.run sessions.idle here
        obtain ⟨_, rfl⟩ := Db.rotate_error raced there
        exact .inl ⟨_, _, rfl, rfl⟩
      | noUser _ absent =>
        refine .inr ⟨_, rfl, ?_⟩
        generalize told : Process.told index (history.take n) = list at script
        cases script with
        | logoutAll => rfl
        | idle idle => contradiction
        | reused =>
          obtain ⟨_, _, _, current, there, _⟩ := seen_known before (told ▸ List.mem_cons_self)
          exact nomatch absent.symm.trans there
        | @raced refreshToken _ row user =>
          have read : seen (hashRefreshToken config refreshToken) row user ∈
              Process.told index (history.take n) :=
            told ▸ List.mem_append_left _ List.mem_cons_self
          obtain ⟨_, _, _, current, there, _⟩ := seen_known before read
          exact nomatch absent.symm.trans there
      | _ => contradiction
    | faulted fault => exact fault.elim
    | rejected =>
      generalize Process.told index (history.take n) = list at script
      cases script with
      | idle idle => contradiction
      | verify => exact session.elim
    | _ => contradiction

end Over

/-! ### The tables in turns -/

/-- The tables after the turns so far: the same rows, and users logged out as often as their
rows were revoked. -/
structure Level (db₀ db serial : Db) (swept : Uuid → Nat) : Prop where
  tokens : serial.refreshTokens = db.refreshTokens
  users : serial.users = raised db₀.users swept

section Serial
variable {serial : Db} {out swept : Uuid → Nat} {drawn : List Exchange}

theorem Level.linked (level : Level db₀ db serial swept) (linked : db.Linked) : serial.Linked :=
  linked.touched (.same level.tokens)

theorem Level.known (level : Level db₀ db serial swept) {before : User}
    (known : db₀.users.find userId = some before) : serial.users.find userId =
      some { before with tokenVersion := before.tokenVersion + swept userId } := by
  rw [level.users, raised_find, known]
  rfl

theorem During.origin (during : During db₀ db out swept) (known : db.users.find userId = some user) :
    ∃ before, db₀.users.find userId = some before ∧
      user = { before with tokenVersion := before.tokenVersion + out userId } := by
  rw [during.users, raised_find] at known
  obtain ⟨before, there, same⟩ := Option.map_eq_some_iff.mp known
  exact ⟨before, there, same.symm⟩

theorem Db.eq_of_tables {db db' : Db} (users : db.users = db'.users)
    (tokens : db.refreshTokens = db'.refreshTokens) : db = db' := by
  cases db
  cases users
  cases tokens
  rfl

/-- What is not found is not found in turns. -/
theorem Level.absent (level : Level db₀ db serial swept) (during : During db₀ db out swept)
    (absent : db.findRefreshToken token = none) : serial.findRefreshToken token = none := by
  cases found : serial.findRefreshToken token with
  | none => rfl
  | some pair =>
    obtain ⟨stored, hash, known⟩ := Db.findRefreshToken_some found
    rw [level.users, raised_find] at known
    obtain ⟨before, there, _⟩ := Option.map_eq_some_iff.mp known
    have known' : db.users.find pair.1.userId =
        some { before with tokenVersion := before.tokenVersion + out pair.1.userId } := by
      rw [during.users, raised_find, there]
      rfl
    rw [level.tokens] at stored
    exact nomatch absent.symm.trans (during.linked.found stored hash known')

/-- A row that is there is read in turns, with its user as of then. -/
theorem Level.reads (level : Level db₀ db serial swept) (during : During db₀ db out swept)
    (stored : db.refreshTokens.find key = some row) (hash : row.token = token) {before : User}
    (known : db₀.users.find row.userId = some before) :
    Alone (serial, drawn) (.findRefreshToken token)
      (.ok (some (row, { before with tokenVersion := before.tokenVersion + swept row.userId })))
      (serial, drawn) := by
  have found := (level.linked during.linked).found (level.tokens ▸ stored) hash (level.known known)
  rw [← found]
  exact .executed (.foundToken token)

/-- What is found now is found in turns too, with its user as of then. -/
theorem Level.rereads (level : Level db₀ db serial swept) (during : During db₀ db out swept)
    (found : db.findRefreshToken token = some (row, user)) :
    ∃ before, db₀.users.find row.userId = some before ∧ ∀ drawn, Alone (serial, drawn)
      (.findRefreshToken token)
      (.ok (some (row, { before with tokenVersion := before.tokenVersion + swept row.userId })))
      (serial, drawn) := by
  obtain ⟨stored, hash, known⟩ := Db.findRefreshToken_some found
  obtain ⟨before, known, _⟩ := during.origin known
  exact ⟨before, known, fun _ => level.reads during stored hash known⟩

/-- A logout from everywhere, in one go. -/
theorem Level.logsOut (level : Level db₀ db serial swept) {before : User}
    (known : db₀.users.find userId = some before) :
    ∃ serial', (∀ drawn, Answers Alone (serial, drawn)
      [⟨.incrementTokenVersion userId, .ok ()⟩, ⟨.revokeAll userId, .ok ()⟩] (serial', drawn)) ∧
      Level db₀ (db.revokeMany (·.userId = userId) none) serial'
        fun id => swept id + if id = userId then 1 else 0 := by
  have incremented : serial.incrementTokenVersion userId = some
      { serial with users := raised db₀.users fun id => swept id + if id = userId then 1 else 0 } := by
    unfold Db.incrementTokenVersion
    rw [if_pos (by rw [level.known known]; rfl), ← raised_modify, ← level.users]
  refine ⟨_, fun _ => .cons (.executed (.incremented incremented))
    (.cons (.executed (.revokedAll userId)) (.nil _)), ?_, rfl⟩
  unfold Db.revokeMany
  dsimp only
  rw [level.tokens]

theorem Level.misses (level : Level db₀ db serial swept) (during : During db₀ db out swept)
    (absent : db.findRefreshToken token = none) :
    Alone (serial, drawn) (.findRefreshToken token) (.ok none) (serial, drawn) := by
  rw [← level.absent during absent]
  exact .executed (.foundToken token)

theorem Level.revokes (level : Level db₀ db serial swept) (where' : RefreshToken → Bool) :
    Level db₀ (db.revokeMany where' none) (serial.revokeMany where' none) swept := by
  refine ⟨?_, level.users⟩
  unfold Db.revokeMany
  dsimp only
  rw [level.tokens]

theorem Level.rotates {existingId rotatedId : Uuid} {data : NewToken} (level : Level db₀ db serial swept)
    (rotated : db.rotate existingId rotatedId data = some (.ok db'))
    (known : (serial.users.find data.userId).isSome = true) :
    ∃ serial', serial.rotate existingId rotatedId data = some (.ok serial') ∧
      Level db₀ db' serial' swept := by
  unfold Db.rotate at rotated ⊢
  obtain ⟨created, inserted, outcome⟩ := Option.map_eq_some_iff.mp rotated
  obtain ⟨free, _, fresh, _⟩ := Db.createRefreshToken_some inserted
  have inserted' : serial.createRefreshToken rotatedId data =
      some { serial with refreshTokens := created.refreshTokens } := by
    unfold Db.createRefreshToken
    rw [level.tokens, fresh, guard, if_pos ⟨free, known⟩]
    rfl
  split at outcome
  · contradiction
  · rename_i counted
    cases outcome
    refine ⟨Db.revokeMany { serial with refreshTokens := created.refreshTokens }
      (·.id = existingId) (some rotatedId), ?_, rfl, level.users⟩
    rw [inserted', Option.map_some]
    exact congrArg some (if_neg counted)

end Serial

/-- Where no alarm is false, a rotation that fails has met its row replaced. -/
theorem over_raced (sessions : SessionsOver config argon2 start history service) (founded : ¬ FalseAlarm history)
    {pool : Service} {existingId : Uuid} {data : NewToken} {error : Failure} (cut : history = earlier ++ rest)
    (before : Runs.Run (Service.Step config argon2 False) start earlier pool)
    (member : (⟨.rotate existingId data, .error error⟩ : Exchange) ∈ Process.told index earlier) :
    ∃ current, pool.world.db.refreshTokens.find existingId = some current ∧ current.revoked = true ∧
      current.replacedByTokenId.isSome = true ∧ error = .forbidden "Refresh token reuse detected" := by
  obtain ⟨n, pool', here⟩ := told_at.mp member
  have inside : n < earlier.length := (List.getElem?_eq_some_iff.mp here).1
  obtain ⟨_, _, row, _, _, _, current, _, _, rfl, rfl, _, _, _, there, _⟩ :=
    rotate_reads before sessions.idle here
  obtain ⟨_, between, step, after⟩ := before.pass here
  obtain ⟨_, raced⟩ := executes_raced (step_executes step id (by simp))
  obtain ⟨revoked, same⟩ := Db.rotate_error raced there
  obtain ⟨later, there', latest⟩ :=
    ((step_grows step).trans (run_grows after)).tokens row.id current there
  obtain rfl := latest.final revoked
  refine ⟨later, there', revoked, ?_, same⟩
  by_contra unreplaced
  have alarm : (earlier ++ rest)[n]? = _ := (List.getElem?_append_left inside).trans here
  rw [← cut] at alarm
  exact founded ⟨n, pool', index, row.id, _, _, later, alarm, there, revoked, by simpa using unreplaced⟩

/-- A row that is exchanged is as it was read, and nobody of its user was logged out before. -/
theorem rotated_unswept {pool : Service} {rotatedId : Uuid} {data : NewToken}
    (before : Runs.Run (Service.Step config argon2 False) start earlier pool)
    (during : During start.world.db pool.world.db (fun id => exchanges (raises id) earlier)
      fun id => exchanges (sweeps id) earlier)
    (read : seen token row user ∈ Process.told index earlier) (current : user.tokenVersion = row.tokenVersion)
    (rotated : pool.world.db.rotate row.id rotatedId data = some (.ok db')) :
    pool.world.db.refreshTokens.find row.id = some row ∧ ∃ was,
      start.world.db.users.find row.userId = some was ∧
        user = { was with tokenVersion := was.tokenVersion + exchanges (sweeps row.userId) earlier } := by
  obtain ⟨_, _, ⟨row', there, latest⟩, _, known, _⟩ := seen_known before read
  have unrevoked := (Db.rotate_ok rotated there).unrevoked
  obtain rfl : row' = row := by
    rcases latest with same | ⟨_, _, rfl⟩
    · exact same
    · contradiction
  have unswept : exchanges (sweeps row'.userId) earlier = 0 := by
    by_contra some'
    have revoked := during.revoked row'.id row' there (Nat.pos_of_ne_zero some')
    rw [unrevoked] at revoked
    contradiction
  obtain ⟨was, known, older⟩ := during.bounded row'.id row' there
  refine ⟨there, was, known, ?_⟩
  obtain ⟨times, rfl⟩ := seen_since before read known
  dsimp only at current
  rw [unswept, show times = 0 by omega]

section Points
variable {pool pool' : Service} {op : Op} {answer : Except Failure op.Answer} {serial : Db}

/-- A step that revokes no rows of a user leaves the count. -/
theorem Level.unswept (level : Level db₀ db serial fun id => exchanges (sweeps id) earlier)
    (unswept : ∀ id, sweeps id ⟨op, answer⟩ = false) : Level db₀ db serial
      fun id => exchanges (sweeps id) (earlier ++ [(pool, .served index op answer)]) := by
  simpa [exchanges_step, Event.exchange, unswept] using level

/-- The end of a logout from everywhere is the whole of it, in turns. -/
theorem over_loggedOut (step : Service.Step config argon2 False pool (.served index (.revokeAll userId) (.ok ()))
      pool') (during : During start.world.db pool.world.db (fun id => exchanges (raises id) earlier)
      fun id => exchanges (sweeps id) earlier)
    (level : Level start.world.db pool.world.db serial fun id => exchanges (sweeps id) earlier)
    (known : pool.world.db.users.find userId = some user) :
    ∃ was serial', start.world.db.users.find userId = some was ∧
      (∀ drawn, Answers Alone (serial, drawn)
        [⟨.incrementTokenVersion userId, .ok ()⟩, ⟨.revokeAll userId, .ok ()⟩] (serial', drawn)) ∧
      Level start.world.db pool'.world.db serial'
        fun id => exchanges (sweeps id) (earlier ++ [(pool, .served index (.revokeAll userId) (.ok ()))]) := by
  obtain ⟨was, known, _⟩ := during.origin known
  obtain ⟨serial', answers, level'⟩ := level.logsOut known
  refine ⟨was, serial', known, answers, ?_⟩
  rw [executes_swept (step_executes step id (by simp))]
  simpa [exchanges_step, Event.exchange, sweeps] using level'

/-- A rotation is the rotation of the same row, in turns. -/
theorem over_rotated {data : NewToken}
    (before : Runs.Run (Service.Step config argon2 False) start earlier pool)
    (step : Service.Step config argon2 False pool (.served index (.rotate row.id data) (.ok ())) pool')
    (during : During start.world.db pool.world.db (fun id => exchanges (raises id) earlier)
      fun id => exchanges (sweeps id) earlier)
    (level : Level start.world.db pool.world.db serial fun id => exchanges (sweeps id) earlier)
    (read : seen token row user ∈ Process.told index earlier) (current : user.tokenVersion = row.tokenVersion)
    (owner : data.userId = row.userId) : ∃ rotatedId serial',
      (∀ drawn, Alone (serial, drawn) (.findRefreshToken token) (.ok (some (row, user))) (serial, drawn)) ∧
      serial.rotate row.id rotatedId data = some (.ok serial') ∧
      Level start.world.db pool'.world.db serial'
        fun id => exchanges (sweeps id) (earlier ++ [(pool, .served index (.rotate row.id data) (.ok ()))]) := by
  obtain ⟨rotatedId, rotated⟩ := executes_rotated (step_executes step id (by simp))
  obtain ⟨there, was, known, same⟩ := rotated_unswept before during read current rotated
  have known' : (serial.users.find data.userId).isSome = true := by
    rw [owner, level.known known]
    rfl
  obtain ⟨serial', rotated', level'⟩ := level.rotates rotated known'
  refine ⟨rotatedId, serial', fun drawn => ?_, rotated', level'.unswept fun _ => rfl⟩
  rw [same]
  exact level.reads during there (seen_known before read).1 known

/-- A reading is the reading of the same row, in turns, with its user as of then. -/
theorem over_reread
    (step : Service.Step config argon2 False pool
      (.served index (.findRefreshToken token) (.ok (some (row, user)))) pool')
    (during : During start.world.db pool.world.db (fun id => exchanges (raises id) earlier)
      fun id => exchanges (sweeps id) earlier)
    (level : Level start.world.db pool.world.db serial fun id => exchanges (sweeps id) earlier) :
    ∃ was, start.world.db.users.find row.userId = some was ∧ row.tokenVersion ≤ was.tokenVersion ∧
      (∀ drawn, Alone (serial, drawn) (.findRefreshToken token)
        (.ok (some (row, { was with tokenVersion := was.tokenVersion + exchanges (sweeps row.userId) earlier })))
        (serial, drawn)) ∧
      Level start.world.db pool'.world.db serial fun id => exchanges (sweeps id)
        (earlier ++ [(pool, .served index (.findRefreshToken token) (.ok (some (row, user))))]) := by
  obtain ⟨stored, unchanged⟩ := step_found step
  obtain ⟨was, known, reads⟩ := level.rereads during stored.symm
  obtain ⟨was', known', older⟩ := during.bounded row.id row (Db.findRefreshToken_some stored.symm).1
  obtain rfl := Option.some.inj (known.symm.trans known')
  refine ⟨was, known, older, reads, ?_⟩
  rw [unchanged]
  exact level.unswept fun _ => rfl

end Points

/-- The step that counts is the whole turn of its request. -/
theorem over_turn (sessions : SessionsOver config argon2 start history service) (founded : ¬ FalseAlarm history)
    (entire : ¬ HalfLoggedOut start history) {pool pool' : Service} {op : Op}
    {answer : Except Failure op.Answer} {serial : Db}
    (cut : history = earlier ++ (pool, .served index op answer) :: rest)
    (before : Runs.Run (Service.Step config argon2 False) start earlier pool)
    (step : Service.Step config argon2 False pool (.served index op answer) pool')
    (counts : commits (Process.told index history) ⟨op, answer⟩ = true)
    (during : During start.world.db pool.world.db (fun id => exchanges (raises id) earlier)
      fun id => exchanges (sweeps id) earlier)
    (level : Level start.world.db pool.world.db serial fun id => exchanges (sweeps id) earlier) :
    ∃ serial', Turn config history service serial index serial' ∧
      Level start.world.db pool'.world.db serial'
        fun id => exchanges (sweeps id) (earlier ++ [(pool, .served index op answer)]) := by
  obtain ⟨endpoint, result, found, session, script, ends⟩ := over_served sessions cut
  have told : Process.told index history =
      Process.told index earlier ++ ⟨op, answer⟩ :: Process.told index rest := cut ▸ told_cut
  rcases life_of_ends session ends (over_clean sessions found) with
    ⟨none', _⟩ | ⟨first, commit, last, lived, life⟩
  · simp [none'] at told
  obtain ⟨_, unfirst, unlast⟩ := life.commits
  obtain ⟨toldFirst, same, toldLast⟩ :=
    cut_unique (told.symm.trans lived) (lived ▸ counts) unfirst unlast
  have turn : ∀ {serial' : Db} {lives drawn' left : List Exchange}, drawn index history = drawn' →
      Answers Alone (serial, drawn') lives (serial', left) → (handle config endpoint).Leads lives (ended result) →
      Turn config history service serial index serial' :=
    fun draws answers leads => ⟨endpoint, result, _, found, (draws ▸ answers).completes leads⟩
  have draws : drawn index history = (first ++ commit :: last).filter draws := by
    rw [drawn, lived]
  cases life with
  | unknown given =>
    cases same
    obtain ⟨absent, unchanged⟩ := step_found step
    refine ⟨serial, turn draws (.cons (level.misses during absent.symm) (.nil _))
      (Life.leads (.unknown given)), ?_⟩
    rw [unchanged]
    exact level.unswept fun _ => rfl
  | revoked given revoked unreplaced =>
    cases same
    obtain ⟨_, _, _, reads, level'⟩ := over_reread step during level
    exact ⟨serial, turn draws (.cons (reads _) (.nil _))
      (Life.leads (.revoked given revoked unreplaced)), level'⟩
  | expired given unrevoked expired =>
    cases same
    obtain ⟨_, _, _, reads, level'⟩ := over_reread step during level
    exact ⟨serial, turn draws (.cons (reads _) (.cons (.drawn rfl) (.nil _)))
      (Life.leads (.expired given unrevoked expired)), level'⟩
  | @outdated _ row user now given unrevoked unexpired outdated =>
    cases same
    obtain ⟨was, known, older, reads, level'⟩ := over_reread step during level
    -- the row was behind its user from the start
    have behind : row.tokenVersion ≠ was.tokenVersion := fun current =>
      entire ⟨index, _, row, user, now, [], was, lived, unrevoked, unexpired, outdated, known, current⟩
    refine ⟨serial, turn draws (.cons (reads _) (.cons (.drawn rfl) (.nil _)))
      (Life.leads (.outdated given unrevoked unexpired ?_)), level'⟩
    dsimp only
    omega
  | @reused refreshToken row user given revoked replaced =>
    cases same
    have read : seen (hashRefreshToken config refreshToken) row user ∈ Process.told index earlier :=
      toldFirst ▸ List.mem_cons_self
    obtain ⟨hash, _, ⟨current, there, later⟩, _, known, _⟩ := seen_known before read
    obtain rfl := later.final revoked
    obtain ⟨was, serial', known, answers, level'⟩ := over_loggedOut step during level known
    exact ⟨serial', turn draws (.cons (level.reads during there hash known) (answers _))
      (Life.leads (.reused given revoked replaced)), level'⟩
  | @raced refreshToken row user now later bytes error given able forbidden =>
    cases same
    have read : seen (hashRefreshToken config refreshToken) row user ∈ Process.told index earlier :=
      toldFirst ▸ List.mem_append_left _ List.mem_cons_self
    have failed : (⟨.rotate row.id (successor config row user bytes later), .error error⟩ : Exchange) ∈
        Process.told index earlier := toldFirst ▸ List.mem_append_right _ List.mem_cons_self
    obtain ⟨hash, _, ⟨current, there, latest⟩, _, known, _⟩ := seen_known before read
    obtain ⟨current', there', revoked, replaced, rfl⟩ := over_raced sessions founded cut before failed
    obtain rfl := Option.some.inj (there.symm.trans there')
    obtain ⟨_, token, owner, _⟩ := latest.kept
    obtain ⟨was, serial', known, answers, level'⟩ := over_loggedOut step during level known
    rw [← owner] at answers known
    exact ⟨serial', turn draws (.cons (level.reads during there (token.trans hash) known) (answers _))
      (Life.leads (.reused given revoked replaced)), level'⟩
  | @rotated refreshToken row user now later bytes access given able =>
    cases same
    have read : seen (hashRefreshToken config refreshToken) row user ∈ Process.told index earlier :=
      toldFirst ▸ List.mem_cons_self
    obtain ⟨rotatedId, serial', reads, rotated, level'⟩ :=
      over_rotated before step during level read able.current rfl
    exact ⟨serial', turn draws (.cons (reads _) (.cons (.drawn rfl) (.cons (.drawn rfl)
      (.cons (.drawn rfl) (.cons (.executed (.rotated rotated)) (.cons (.drawn rfl) (.nil _)))))))
      (Life.leads (.rotated given able)), level'⟩
  | @revoke refreshToken given =>
    cases same
    refine ⟨_, turn draws (.cons (.executed (.revoked _)) (.nil _)) (Life.leads (.revoke given)), ?_⟩
    rw [executes_revoked (step_executes step id (by simp))]
    exact (level.revokes _).unswept fun _ => rfl
  | @logoutAll userId =>
    cases same
    obtain ⟨_, known⟩ := loggedOut_known before (toldFirst ▸ List.mem_cons_self :
      (⟨.incrementTokenVersion userId, .ok ()⟩ : Exchange) ∈ Process.told index earlier)
    obtain ⟨was, serial', known, answers, level'⟩ := over_loggedOut step during level known
    exact ⟨serial', turn draws (answers _) (Life.leads .logoutAll), level'⟩
  | @unknownUser userId error =>
    cases same
    obtain ⟨absent, unchanged, message, rfl⟩ := executes_noUser (step_executes step id (by simp))
    have absent' : serial.users.find userId = none := by
      rw [during.users, raised_find, Option.map_eq_none_iff] at absent
      rw [level.users, raised_find, absent]
      rfl
    refine ⟨serial, turn draws (.cons (.executed (.noUser message absent')) (.nil _))
      (Life.leads .unknownUser), ?_⟩
    rw [unchanged]
    exact level.unswept fun _ => rfl

/-- Any other step leaves the rows as they are. -/
theorem over_stutters (sessions : SessionsOver config argon2 start history service) {serial : Db}
    (cut : history = earlier ++ point :: rest)
    (step : Service.Step config argon2 False point.1 point.2 service')
    (turnless : point.2.turn (fun index => commits (Process.told index history)) = none)
    (level : Level start.world.db point.1.world.db serial fun id => exchanges (sweeps id) earlier) :
    Level start.world.db service'.world.db serial fun id => exchanges (sweeps id) (earlier ++ [point]) := by
  obtain ⟨pool, event⟩ := point
  simp only [exchanges_step]
  dsimp only at step turnless level
  cases step with
  | start => simpa [Event.exchange] using level
  | @served _ _ index endpoint op _ answer _ found answered =>
    obtain ⟨_, _, _, session, script, _⟩ := over_served sessions cut
    have settled := script.settled session
    have quiet : writes ⟨op, answer⟩ ≠ true := by
      intro loud
      have turn : (Event.served index op answer : Occurrence).turn
          (fun index => commits (Process.told index history)) = some index :=
        turn_some.mpr ⟨op, answer, rfl, by simp [commits, loud]⟩
      rw [turn] at turnless
      contradiction
    cases answered with
    | executed executed =>
      cases executed with
      | createdUser => exact absurd rfl (settled.1 _)
      | createdToken => exact absurd rfl (settled.2 _)
      | rotated | revoked | revokedAll => exact absurd rfl quiet
      | incremented incremented =>
        obtain ⟨_, _, _, _, same⟩ := Db.incrementTokenVersion_some incremented
        simpa [Event.exchange, sweeps] using Level.mk (level.tokens.trans same.symm) level.users
      | _ => simpa [Event.exchange, sweeps] using level
    | faulted fault => exact fault.elim
    | _ => simpa [Event.exchange, sweeps] using level
  | outside around =>
    cases around
    simpa [Event.exchange] using level

section Over
variable (sessions : SessionsOver config argon2 start history service)
include sessions

/-- Every request has been silent or has had its life. -/
theorem over_life (inside : index < service.running.length) : ∃ endpoint result,
    service.running[index]? = some (endpoint, ended result) ∧
      (Process.told index history = [] ∧ Silent endpoint result ∨
        ∃ before commit after, Process.told index history = before ++ commit :: after ∧
          Life config endpoint before commit after result) := by
  obtain ⟨⟨endpoint, left⟩, found⟩ : ∃ pair, service.running[index]? = some pair :=
    ⟨_, List.getElem?_eq_getElem inside⟩
  obtain ⟨result, rfl⟩ := sessions.finished index endpoint left found
  have ends := follows_ended.mp (run_follows sessions.run sessions.idle (handle_follows config) found)
  exact ⟨endpoint, result, found, life_of_ends (sessions.inSession index endpoint _ found) ends
    (over_clean sessions found)⟩

/-- Whoever was logged out was so to the end. -/
theorem over_swept : exchanges (raises userId) history = exchanges (sweeps userId) history := by
  rw [exchanges_told _ sessions.run sessions.idle, exchanges_told _ sessions.run sessions.idle]
  refine Finset.sum_congr rfl fun index member => ?_
  obtain ⟨_, _, _, ⟨none', _⟩ | ⟨_, _, _, told, life⟩⟩ := over_life sessions (Finset.mem_range.mp member)
  · rw [none']
    rfl
  · rw [told]
    cases life <;> simp [raises, sweeps, prepared, seen, List.countP_cons]

/-- The requests that were told nothing can have their turns at any time. -/
theorem silent_turns (silents : List Nat) (db : Db)
    (silent : ∀ index ∈ silents, index < service.running.length ∧ Process.told index history = []) :
    Runs.Run (Turn config history service) db (silents.map fun index => (db, index)) db := by
  induction silents with
  | nil => exact .refl
  | cons index silents ih =>
    obtain ⟨inside, none'⟩ := silent index List.mem_cons_self
    have rest := ih fun other member => silent other (List.mem_cons_of_mem _ member)
    obtain ⟨endpoint, result, found, ⟨_, silent⟩ | ⟨_, _, _, told, _⟩⟩ := over_life sessions inside
    · have turn : Turn config history service db index db :=
        ⟨endpoint, result, _, found, (Answers.nil (db, drawn index history)).completes (silent_leads silent)⟩
      exact .head turn rest
    · simp [none'] at told

/-- The turns read off the run and those of the silent requests are all there are. -/
theorem turns_perm {order : List (Db × Nat)} (same : order.map Prod.snd =
    history.filterMap fun point => point.2.turn fun index => commits (Process.told index history)) :
    (order.map Prod.snd ++ (List.range service.running.length).filter fun index =>
      (Process.told index history).isEmpty).Perm (List.range service.running.length) := by
  have once : ∀ index, (order.map Prod.snd).count index =
      if index < service.running.length ∧ (Process.told index history).isEmpty = false then 1 else 0 := by
    intro index
    rw [same, count_turns]
    rcases Nat.lt_or_ge index service.running.length with inside | outside
    · obtain ⟨_, _, _, ⟨none', _⟩ | ⟨before, commit, after, told, life⟩⟩ := over_life sessions inside
      · simp [none']
      · obtain ⟨counts, first, last⟩ := life.commits
        rw [told, List.countP_append, List.countP_cons_of_pos counts,
          List.countP_eq_zero.mpr (by simpa using first), List.countP_eq_zero.mpr (by simpa using last)]
        simp [inside]
    · rw [run_told_absent sessions.run outside]
      simp
  rw [List.perm_iff_count]
  intro index
  rw [List.count_append, once, (List.nodup_range.filter _).count, List.nodup_range.count]
  simp only [List.mem_filter, List.mem_range]
  by_cases inside : index < service.running.length
  · cases silent : (Process.told index history).isEmpty <;> simp [inside]
  · simp [inside]

/-- Requests of sessions that interleave do what they would have done in turns, where no alarm
is false and nobody is found half logged out. -/
theorem over_serializable (founded : ¬ FalseAlarm history) (entire : ¬ HalfLoggedOut start history) :
    Serializable config start history service := by
  obtain ⟨order, serial, turned, same, level⟩ := sessions.run.picked (Turn config history service)
    (fun occurrence => occurrence.turn fun index => commits (Process.told index history))
    (fun earlier pool serial =>
      Level start.world.db pool.world.db serial fun id => exchanges (sweeps id) earlier)
    (fun cut _ step turnless level => over_stutters sessions cut step turnless level)
    (fun {earlier point rest u serial index} cut before step turn level => by
      obtain ⟨op, answer, served, counts⟩ := turn_some.mp turn
      obtain ⟨pool, event⟩ := point
      obtain rfl : event = _ := served
      obtain ⟨_, _, step', after⟩ := sessions.run.cut cut
      have during := over_during sessions cut before (.head step' after)
      exact over_turn sessions founded entire cut before step counts during level)
    ⟨rfl, raised_none.symm⟩
  have during := over_during sessions (List.append_nil history).symm sessions.run .refl
  have ends : serial = service.world.db := by
    refine Db.eq_of_tables ?_ level.tokens
    rw [level.users, during.users]
    exact congrArg (raised start.world.db.users) (funext fun id => (over_swept sessions).symm)
  subst ends
  have silents := silent_turns sessions
    ((List.range service.running.length).filter fun index => (Process.told index history).isEmpty)
    service.world.db fun index member => by simpa using List.mem_filter.mp member
  refine ⟨_, ?_, turned.trans silents⟩
  rw [List.map_append, List.map_map]
  simpa using turns_perm sessions same

end Over

end Sessions

end Stellance.Auth
