import Stellance.Auth.Rotation

/-! The version of a user. It only grows, no row is ahead of its user, and a row that rests
on a reading from before a logout from everywhere is of no use after it, however late it is
stored. -/
namespace Stellance.Auth
open AuthService
open Process hiding await
open Backend (Uuid UserRole)

section Service
variable {config : Config} {argon2 : String → String → Bool} {faults : Prop} {db db' : Db}
  {start service service' : Service} {history : List (Service × Occurrence)} {occurrence : Occurrence}
  {index n : Nat} {id key existingId userId : Uuid} {row row' : RefreshToken} {data data' : NewToken} {user : User}
  {op : Op} {answer : Except Failure op.Answer}

/-! ### What is stored -/

/-- The row was issued on the data. -/
def RefreshToken.Of (row : RefreshToken) (data : NewToken) : Prop :=
  row.token = data.token ∧ row.userId = data.userId ∧ row.tokenVersion = data.tokenVersion

theorem RefreshToken.Later.of (later : row.Later row') (of : row.Of data) : row'.Of data := by
  obtain ⟨_, token, user, version, _⟩ := later.kept
  exact ⟨token.trans of.1, user.trans of.2.1, version.trans of.2.2⟩

namespace Db

theorem revokeMany_origin {where' : RefreshToken → Bool} {replacement : Option Uuid}
    (found : (db.revokeMany where' replacement).refreshTokens.find key = some row') :
    ∃ row, db.refreshTokens.find key = some row ∧ row.Later row' := by
  rw [revokeMany_find] at found
  obtain ⟨row, there, same⟩ := Option.map_eq_some_iff.mp found
  have grows : db.Grows (db.revokeMany where' replacement) := revokeMany_grows
  obtain ⟨row'', there', later⟩ := grows.tokens key row there
  rw [revokeMany_find, there] at there'
  exact ⟨row, there, Option.some.inj (there'.symm.trans (congrArg some same)) ▸ later⟩

end Db

/-- A row is the row it was, or has been issued. -/
theorem executes_row (executed : Executes db op answer db') (found : db'.refreshTokens.find key = some row') :
    (∃ row, db.refreshTokens.find key = some row ∧ row.Later row') ∨
      ∃ data, op.issues = some data ∧ row'.Of data := by
  have created : ∀ {id : Uuid} {data : NewToken} {db' : Db} {row' : RefreshToken},
      db.createRefreshToken id data = some db' → db'.refreshTokens.find key = some row' →
      (∃ row, db.refreshTokens.find key = some row ∧ row.Later row') ∨ row'.Of data := by
    intro id data db' row' created found
    rw [Db.createRefreshToken_find created] at found
    split at found
    · cases found
      exact .inr ⟨rfl, rfl, rfl⟩
    · exact .inl ⟨row', found, .refl row'⟩
  cases executed with
  | createdUser made => exact .inl ⟨row', (Db.createUser_some made).2.2.2.2 ▸ found, .refl row'⟩
  | @createdToken data _ _ made => exact (created made found).imp_right fun of => ⟨data, rfl, of⟩
  | @rotated _ _ data _ rotated =>
    unfold Db.rotate at rotated
    obtain ⟨between, inserted, outcome⟩ := Option.map_eq_some_iff.mp rotated
    split at outcome
    · contradiction
    · cases outcome
      obtain ⟨row, there, later⟩ := Db.revokeMany_origin found
      rcases created inserted there with ⟨old, there', later'⟩ | of
      · exact .inl ⟨old, there', later'.trans later⟩
      · exact .inr ⟨data, rfl, later.of of⟩
  | revoked | revokedAll => exact .inl (Db.revokeMany_origin found)
  | incremented incremented =>
    obtain ⟨_, _, _, _, same⟩ := Db.incrementTokenVersion_some incremented
    exact .inl ⟨row', same ▸ found, .refl row'⟩
  | foundUser | refusedUser | foundToken | raced | noUser => exact .inl ⟨row', found, .refl row'⟩

/-- What is issued goes under a hash of its own. -/
theorem executes_issued {value : op.Answer} (executed : Executes db op (.ok value) db')
    (issues : op.issues = some data) : (∀ row ∈ db.refreshTokens.rows, row.token ≠ data.token) ∧
      ∃ id row, db'.refreshTokens.find id = some row ∧ row.Of data := by
  cases executed with
  | @createdToken _ id _ created =>
    cases issues
    refine ⟨(Db.createRefreshToken_some created).1, id, .issued id data, ?_, rfl, rfl, rfl⟩
    rw [Db.createRefreshToken_find created, if_pos rfl]
  | @rotated _ rotatedId _ _ rotated =>
    cases issues
    unfold Db.rotate at rotated
    obtain ⟨between, inserted, outcome⟩ := Option.map_eq_some_iff.mp rotated
    split at outcome
    · contradiction
    · cases outcome
      have there : between.refreshTokens.find rotatedId = some (.issued rotatedId data) := by
        rw [Db.createRefreshToken_find inserted, if_pos rfl]
      obtain ⟨row, there, later⟩ := Db.revokeMany_grows.tokens rotatedId _ there
      exact ⟨(Db.createRefreshToken_some inserted).1, rotatedId, row, there, later.of ⟨rfl, rfl, rfl⟩⟩
  | _ => contradiction

/-! ### In a run -/

theorem step_row (step : Service.Step config argon2 faults service occurrence service')
    (found : service'.world.db.refreshTokens.find key = some row') :
    (∃ row, service.world.db.refreshTokens.find key = some row ∧ row.Later row') ∨
      ∃ index op answer data, occurrence = .served index op answer ∧ op.issues = some data ∧
        row'.Of data := by
  cases step with
  | start => exact .inl ⟨row', found, .refl row'⟩
  | served _ answered =>
    cases answered with
    | executed executed =>
      refine (executes_row executed found).imp_right ?_
      rintro ⟨data, issues, of⟩
      exact ⟨_, _, _, data, rfl, issues, of⟩
    | _ => exact .inl ⟨row', found, .refl row'⟩
  | outside around =>
    cases around
    exact .inl ⟨row', found, .refl row'⟩

theorem step_issued {value : op.Answer}
    (step : Service.Step config argon2 faults service (.served index op (.ok value)) service')
    (issues : op.issues = some data) :
    (∀ row ∈ service.world.db.refreshTokens.rows, row.token ≠ data.token) ∧
      ∃ id row, service'.world.db.refreshTokens.find id = some row ∧ row.Of data := by
  cases step with
  | served _ answered =>
    cases answered with
    | executed executed => exact executes_issued executed issues
    | _ => contradiction

theorem step_logsOut
    (step : Service.Step config argon2 faults service (.served index (.incrementTokenVersion userId) (.ok ()))
      service') : ∃ user, service.world.db.users.find userId = some user ∧
        service'.world.db.users.find userId = some user.logOut := by
  cases step with
  | served _ answered =>
    cases answered with
    | executed executed =>
      cases executed with
      | incremented incremented =>
        obtain ⟨user, found, stored, _⟩ := Db.incrementTokenVersion_some incremented
        exact ⟨user, found, stored⟩

/-- The statements go through to the tables where nothing fails for reasons of its own. -/
theorem step_executes (step : Service.Step config argon2 False service (.served index op answer) service')
    (busy : ¬ op.Idle) (unverified : ∀ token, op ≠ .verifyJwt token) :
    Executes service.world.db op answer service'.world.db := by
  cases step with
  | served _ answered =>
    cases answered with
    | executed executed => exact executed
    | accepted | rejected => exact absurd rfl (unverified _)
    | faulted fault => exact fault.elim
    | _ => exact absurd trivial busy

section Run
variable (run : Runs.Run (Service.Step config argon2 faults) start history service)
  (idle : start.running = [])
include run

/-- Whom a request has read is in the tables ever after. -/
theorem read_known {exchange : Exchange} (member : exchange ∈ Process.told index history)
    (found : reads exchange = some user) :
    ∃ current, service.world.db.users.find user.id = some current ∧
      user.tokenVersion ≤ current.tokenVersion := by
  obtain ⟨_, _, here⟩ := told_at.mp member
  obtain ⟨_, _, step, rest⟩ := run.pass here
  obtain ⟨current, there, later⟩ := (run_grows rest).users user.id user (step_reads step found)
  exact ⟨current, there, later.version⟩

/-- Who was logged out is known. -/
theorem loggedOut_known
    (member : (⟨.incrementTokenVersion userId, .ok ()⟩ : Exchange) ∈ Process.told index history) :
    ∃ current, service.world.db.users.find userId = some current := by
  obtain ⟨_, _, here⟩ := told_at.mp member
  obtain ⟨_, _, step, rest⟩ := run.pass here
  obtain ⟨_, _, stored⟩ := step_logsOut step
  obtain ⟨current, there, _⟩ := (run_grows rest).users userId _ stored
  exact ⟨current, there⟩

include idle

/-- No row is ahead of its user. -/
theorem run_bounded (none' : start.world.db.refreshTokens.rows = []) :
    ∀ key row, service.world.db.refreshTokens.find key = some row →
      ∃ user, service.world.db.users.find row.userId = some user ∧ row.tokenVersion ≤ user.tokenVersion := by
  induction run with
  | refl =>
    intro key row found
    have member := Table.mem_of_find found
    rw [none'] at member
    contradiction
  | @tail history pool occurrence after run step ih =>
    intro key row' found
    rcases step_row step found with ⟨row, there, later⟩ | ⟨index, op, answer, data, rfl, issues, of⟩
    · obtain ⟨user, known, le⟩ := ih key row there
      obtain ⟨user', known', later'⟩ := (step_grows step).users row.userId user known
      obtain ⟨_, _, sameUser, sameVersion, _⟩ := later.kept
      exact ⟨user', sameUser ▸ known', sameVersion ▸ le.trans later'.version⟩
    · have here : (history ++ [(pool, .served index op answer)])[history.length]? =
          some (pool, .served index op answer) := List.getElem?_concat_length
      obtain ⟨user, readings, own⟩ := issue_reads (run.tail step) idle here issues
      rw [List.take_left] at readings
      have only : user ∈ (Process.told index history).filterMap reads := readings ▸ List.mem_cons_self
      obtain ⟨exchange, member, found'⟩ := List.mem_filterMap.mp only
      obtain ⟨current, known, le⟩ := read_known run member found'
      obtain ⟨user', known', later'⟩ := (step_grows step).users user.id current known
      refine ⟨user', ?_, ?_⟩
      · rw [of.2.1, own.1]
        exact known'
      · rw [of.2.2, own.2]
        exact le.trans later'.version

end Run

/-! ### After a logout from everywhere -/

/-- At this point the operation of a request is answered. -/
def At (history : List (Service × Occurrence)) (n index : Nat) (op : Op)
    (answer : Except Failure op.Answer) : Prop :=
  ∃ pool, history[n]? = some (pool, .served index op answer)

section After
variable (run : Runs.Run (Service.Step config argon2 faults) start history service)
  (idle : start.running = [])
include run idle

/-- A refresh reads once. -/
theorem reread_unique {m : Nat} {token token' : String}
    {answer answer' : Except Failure (Option (RefreshToken × User))}
    (first : At history n index (.findRefreshToken token) answer)
    (second : At history m index (.findRefreshToken token') answer') : n = m := by
  have alone : ∀ {n token answer}, At history n index (.findRefreshToken token) answer →
      Process.told index (history.take n) = [] := by
    rintro n token answer ⟨pool, here⟩
    obtain ⟨endpoint, _, _, script⟩ := run_script run idle (handle_follows config) here
    generalize Process.told index (history.take n) = told at script
    cases script with
    | read => rfl
    | idle idle => contradiction
  have apart : ∀ {n m token token' answer answer'}, At history n index (.findRefreshToken token) answer →
      At history m index (.findRefreshToken token') answer' → ¬ n < m := by
    rintro n m token token' answer answer' ⟨pool, here⟩ there before
    have member := mem_told_take here before
    rw [alone there] at member
    contradiction
  rcases Nat.lt_trichotomy n m with before | same | after
  · exact absurd before (apart first second)
  · exact same
  · exact absurd after (apart second first)

/-- A rotation finds the versions of the row and of its user equal. -/
theorem rotate_current {m : Nat} {token : String} {answer : Except Failure Unit}
    {answer' : Except Failure (Option (RefreshToken × User))}
    (rotates : At history n index (.rotate id data) answer)
    (rereads : At history m index (.findRefreshToken token) answer') :
    ∃ row user, answer' = .ok (some (row, user)) ∧ user.tokenVersion = row.tokenVersion := by
  obtain ⟨pool, here⟩ := rotates
  obtain ⟨refreshToken, _, row, user, _, _, _, _, told, _, _, able, _⟩ := rotate_reads run idle here
  have member : seen (hashRefreshToken config refreshToken) row user ∈
      Process.told index (history.take n) := told ▸ List.mem_cons_self
  obtain ⟨m', _, pool', there⟩ := told_take member
  obtain rfl := reread_unique run idle rereads ⟨pool', there⟩
  obtain ⟨pool'', there'⟩ := rereads
  cases there.symm.trans there'
  exact ⟨row, user, rfl, able.current⟩

/-- What a request issues carries the version it has read. -/
theorem issue_own {r i : Nat} {op op' : Op} {answer : Except Failure op.Answer}
    {answer' : Except Failure op'.Answer} (read : At history r index op answer)
    (found : reads ⟨op, answer⟩ = some user) (issue : At history i index op' answer')
    (issues : op'.issues = some data) : data.For user := by
  obtain ⟨pool, here⟩ := read
  obtain ⟨pool', there⟩ := issue
  rcases Nat.lt_trichotomy r i with before | rfl | after
  · obtain ⟨user', readings, own⟩ := issue_reads run idle there issues
    have member : user ∈ (Process.told index (history.take i)).filterMap reads :=
      List.mem_filterMap.mpr ⟨⟨op, answer⟩, mem_told_take here before, found⟩
    rw [readings] at member
    obtain rfl := List.mem_singleton.mp member
    exact own
  · cases here.symm.trans there
    cases op <;> contradiction
  · obtain ⟨endpoint, _, _, script⟩ := run_script run idle (handle_follows config) here
    exact nomatch (script.unissued found _ (mem_told_take there after)).symm.trans issues

/-- A row found under the hash of an issued one is that row, at any time. -/
theorem found_of {i m reader : Nat} {op : Op} {value : op.Answer} (none' : start.world.db.refreshTokens.rows = [])
    (signed : start.world.signed = []) (issue : At history i index op (.ok value))
    (issues : op.issues = some data)
    (rereads : At history m reader (.findRefreshToken data.token) (.ok (some (row, user)))) : row.Of data := by
  obtain ⟨pool, here⟩ := issue
  obtain ⟨pool', there⟩ := rereads
  obtain ⟨before, _, step, _⟩ := run.pass there
  obtain ⟨stored, hash, _⟩ := Db.findRefreshToken_some (step_found step).1.symm
  rcases Nat.lt_trichotomy i m with issued | rfl | late
  · obtain ⟨u, step', rest⟩ := run.between here there issued
    obtain ⟨_, id, row', there', of⟩ := step_issued step' issues
    obtain ⟨row'', there'', later⟩ := (run_grows rest).tokens id row' there'
    have linked := (run_sessions before ⟨idle, none', signed⟩).1
    obtain rfl : row.id = id := by
      refine linked.hashes row.id id row row'' stored there'' ?_
      rw [hash, (later.of of).1]
    obtain rfl := Option.some.inj (stored.symm.trans there'')
    exact later.of of
  · cases here.symm.trans there
    contradiction
  · obtain ⟨u, step', rest⟩ := run.between there here late
    obtain ⟨_, _, issuing, _⟩ := run.pass here
    obtain ⟨row', there', later⟩ :=
      ((step_grows step').trans (run_grows rest)).tokens row.id row stored
    refine absurd ?_ ((step_issued issuing issues).1 row' (Table.mem_of_find there'))
    rw [later.kept.2.1, hash]

end After

/-- No refresh that reads the row after the version was raised gets as far as its rotation. -/
theorem outdated_unrotated {issuer refresher other r b i m : Nat} {op op' : Op}
    {answer : Except Failure op.Answer} {value : op'.Answer}
    {answer' : Except Failure (Option (RefreshToken × User))} {answer'' : Except Failure Unit}
    (run : Runs.Run (Service.Step config argon2 faults) start history service) (started : start.Started)
    (read : At history r issuer op answer) (found : reads ⟨op, answer⟩ = some user)
    (bump : At history b other (.incrementTokenVersion user.id) (.ok ())) (before : r < b)
    (issue : At history i issuer op' (.ok value)) (issues : op'.issues = some data)
    (rereads : At history m refresher (.findRefreshToken data.token) answer') (after : b < m) :
    ¬ At history n refresher (.rotate id data') answer'' := by
  intro rotates
  have idle := started.running
  obtain ⟨row, current, rfl, same⟩ := rotate_current run idle rotates rereads
  have of := found_of run idle started.refreshTokens started.signed issue issues rereads
  have own := issue_own run idle read found issue issues
  obtain ⟨pool, here⟩ := read
  obtain ⟨pool', there⟩ := bump
  obtain ⟨pool'', last⟩ := rereads
  -- the user as read, as logged out, and as read again
  obtain ⟨_, reading, rest⟩ := run.between here there before
  obtain ⟨user', known, first⟩ := (run_grows rest).users user.id user (step_reads reading found)
  obtain ⟨_, bumping, rest'⟩ := run.between there last after
  obtain ⟨_, known', raised⟩ := step_logsOut bumping
  obtain rfl := Option.some.inj (known.symm.trans known')
  obtain ⟨user'', known'', second⟩ := (run_grows rest').users user.id _ raised
  obtain ⟨_, _, rereading, _⟩ := run.pass last
  obtain ⟨_, _, stored⟩ := Db.findRefreshToken_some (step_found rereading).1.symm
  rw [of.2.1, own.1] at stored
  obtain rfl := Option.some.inj (stored.symm.trans known'')
  have older := first.version
  have newer : user'.tokenVersion + 1 ≤ current.tokenVersion := second.version
  have version : row.tokenVersion = user.tokenVersion := of.2.2.trans own.2
  omega

/-- However the requests interleave, the version of a user never decreases and is never below
that of a row of the user. Once a logout from everywhere has raised it, no refresh that reads
after that succeeds with a token whose login or rotation had read the user before. -/
theorem logoutAll_final (run : Runs.Run (Service.Step config argon2 faults) start history service)
    (started : start.Started) :
    (∀ earlier rest pool, history = earlier ++ rest →
      Runs.Run (Service.Step config argon2 faults) start earlier pool →
      Runs.Run (Service.Step config argon2 faults) pool rest service →
      ∀ id user, pool.world.db.users.find id = some user →
        ∃ user', service.world.db.users.find id = some user' ∧ user.tokenVersion ≤ user'.tokenVersion) ∧
    (∀ row ∈ service.world.db.refreshTokens.rows, ∃ user,
      service.world.db.users.find row.userId = some user ∧ row.tokenVersion ≤ user.tokenVersion) ∧
    ∀ (issuer refresher other r b i m : Nat) (op op' : Op) (answer : Except Failure op.Answer)
      (value : op'.Answer) (answer' : Except Failure (Option (RefreshToken × User))) (user : User)
      (data : NewToken), At history r issuer op answer → reads ⟨op, answer⟩ = some user →
      At history b other (.incrementTokenVersion user.id) (.ok ()) → r < b →
      At history i issuer op' (.ok value) → op'.issues = some data →
      At history m refresher (.findRefreshToken data.token) answer' → b < m →
      (∀ n id next answer, ¬ At history n refresher (.rotate id next) answer) ∧
        ∀ refreshToken, ¬ service.Renewed refresher refreshToken := by
  refine ⟨fun _ _ pool _ _ later id user found => ?_, fun row member => ?_, ?_⟩
  · obtain ⟨user', found', later'⟩ := (run_grows later).users id user found
    exact ⟨user', found', later'.version⟩
  · exact run_bounded run started.running started.refreshTokens row.id row (Table.find_of_mem member)
  · intro issuer refresher other r b i m op op' answer value answer' user data read found bump before
      issue issues rereads after
    have never : ∀ n id next answer, ¬ At history n refresher (.rotate id next) answer :=
      fun n id next answer =>
        outdated_unrotated run started read found bump before issue issues rereads after
    refine ⟨never, fun refreshToken renewed => ?_⟩
    obtain ⟨n, pool, id, next, here, _⟩ := renewed_exchanged run started.running renewed
    exact never n id next (.ok ()) ⟨pool, here⟩

end Service

namespace Sample

def user : User := ⟨userId, "a@b.c", "A", .client, "secret", 0⟩

/-- The token of a login that has read its user before a logout from everywhere and stores
its row after it. -/
def late : NewToken := ⟨hashRefreshToken config "rr", userId, 0, 2592000000⟩

/-- That login, and a refresh with its token. -/
def lateLogin : List (Process.Move Endpoint) :=
  registration ++ alone 1 2 (.login "a@b.c" "secret") ++ alone 2 2 (.logoutAll userId) ++
    List.replicate 4 (.serve 1) ++ alone 3 2 (.refresh "rr")

theorem at_of_map {history : List (Service × Occurrence)} {n index : Nat} {op : Op}
    {answer : Except Failure op.Answer}
    (here : (history.map Prod.snd)[n]? = some (.served index op answer)) : At history n index op answer := by
  rw [List.getElem?_map] at here
  obtain ⟨⟨pool, _⟩, here, rfl⟩ := Option.map_eq_some_iff.mp here
  exact ⟨pool, here⟩

end Sample

theorem logoutAll_final_sample : ∃ (service : Service) (history : List (Service × Occurrence)),
    At history 17 1 (.createRefreshToken Sample.late) (.ok (.issued (.repeated 1) Sample.late)) ∧
      ¬ service.Renewed 3 "rr" := by
  have happens : ∃ played, Sample.plays Sample.start Sample.lateLogin = some played ∧
      (played.1.map Prod.snd)[9]? =
        some (.served 1 (.findUserByEmail "a@b.c") (.ok (some Sample.user))) ∧
      (played.1.map Prod.snd)[12]? = some (.served 2 (.incrementTokenVersion Sample.userId) (.ok ())) ∧
      (played.1.map Prod.snd)[17]? = some (.served 1 (.createRefreshToken Sample.late)
        (.ok (.issued (.repeated 1) Sample.late))) ∧
      ∃ found, (played.1.map Prod.snd)[19]? =
        some (.served 3 (.findRefreshToken Sample.late.token) found) :=
    ⟨_, rfl, rfl, rfl, rfl, _, rfl⟩
  obtain ⟨⟨history, service⟩, plays, read, bump, issue, answer, reread⟩ := happens
  obtain ⟨_, _, refused⟩ := logoutAll_final (Sample.plays_run plays) Sample.started
  have refused := refused 1 3 2 9 12 17 19 _ _ _ _ _ Sample.user Sample.late (Sample.at_of_map read) rfl (Sample.at_of_map bump)
    (by decide) (Sample.at_of_map issue) rfl (Sample.at_of_map reread) (by decide)
  exact ⟨service, history, Sample.at_of_map issue, refused.2 "rr"⟩

end Stellance.Auth
