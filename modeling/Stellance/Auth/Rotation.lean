import Stellance.Library.Chains
import Stellance.Auth.Interpreter
import Stellance.Auth.Readings

/-! The rotation of refresh tokens. Every session is a chain of rows, each revoked in favour
of the next, and whatever else is under way, a token is exchanged once at most. -/
namespace Stellance.Auth
open AuthService
open Process hiding await
open Backend (Uuid UserRole)

variable {config : Config} {argon2 : String → String → Bool} {faults : Prop} {db db' : Db}
  {start service service' : Service} {history : List (Service × Occurrence)} {occurrence : Occurrence}
  {index : Nat} {id key : Uuid} {row row' : RefreshToken} {logins : List Uuid}

/-! ### What a step does to the rows -/

/-- The row a login or a registration has stored. -/
def opened : Occurrence → Option Uuid
  | .served _ (.createRefreshToken _) (.ok row) => some row.id
  | _ => none

/-- The rows after a step, and the session it has opened. -/
inductive Db.Touches (db : Db) : Option Uuid → Db → Prop where
  | same {db' : Db} (same : db'.refreshTokens = db.refreshTokens) : Touches db none db'
  | opened {id : Uuid} {data : NewToken} {db' : Db} (created : db.createRefreshToken id data = some db') :
      Touches db (some id) db'
  | rotated {row : RefreshToken} {rotatedId : Uuid} {data : NewToken} {db' : Db}
      (found : db.refreshTokens.find row.id = some row) (rotates : db.Rotates row rotatedId data db')
      (sameUser : data.userId = row.userId) (sameVersion : data.tokenVersion = row.tokenVersion) :
      Touches db none db'
  | revoked (where' : RefreshToken → Bool) : Touches db none (db.revokeMany where' none)

theorem step_touches (run : Runs.Run (Service.Step config argon2 faults) start history service)
    (idle : start.running = []) (step : Service.Step config argon2 faults service occurrence service') :
    service.world.db.Touches (opened occurrence) service'.world.db := by
  have here : (history ++ [(service, occurrence)])[history.length]? = some (service, occurrence) :=
    List.getElem?_concat_length
  have after := run.tail step
  cases step with
  | start => exact .same rfl
  | @served _ _ _ _ op _ _ _ found answered =>
    cases answered with
    | executed executed =>
      cases executed with
      | createdUser created => exact .same (Db.createUser_some created).2.2.2.2
      | createdToken created => exact .opened created
      | rotated rotated =>
        obtain ⟨_, _, row, user, _, _, current, _, _, rfl, rfl, able, _, _, there, later⟩ :=
          rotate_reads after idle here
        obtain ⟨same, _, sameUser, sameVersion, _⟩ := later.kept
        rw [← same] at there rotated
        refine .rotated there (Db.rotate_ok rotated there) sameUser.symm ?_
        exact able.current.trans sameVersion.symm
      | revoked | revokedAll => exact .revoked _
      | incremented incremented =>
        obtain ⟨_, _, _, _, same⟩ := Db.incrementTokenVersion_some incremented
        exact .same same
      | foundUser | refusedUser | foundToken | raced | noUser => exact .same rfl
    | faulted => cases op <;> exact .same rfl
    | _ => exact .same rfl
  | outside around =>
    cases around
    exact .same rfl

namespace Db

/-! ### One step -/

/-- Where a row of the later tables comes from. -/
inductive Origin (db db' : Db) (key : Uuid) (row' : RefreshToken) : Prop where
  | kept {row : RefreshToken} (found : db.refreshTokens.find key = some row) (later : row.Later row')
      (link : row'.replacedByTokenId = row.replacedByTokenId)
  | replaced {row next : RefreshToken} {nextId : Uuid} (found : db.refreshTokens.find key = some row)
      (later : row.Later row') (revoked : row'.revoked = true) (link : row'.replacedByTokenId = some nextId)
      (successor : db'.refreshTokens.find nextId = some next) (sameUser : next.userId = row'.userId)
      (sameVersion : next.tokenVersion = row'.tokenVersion)
  | issued (link : row'.replacedByTokenId = none)
      (free : ∀ row ∈ db.refreshTokens.rows, row.token ≠ row'.token)
      (only : ∀ other row, db'.refreshTokens.find other = some row →
        other = key ∨ ∃ old, db.refreshTokens.find other = some old ∧ old.Later row)

theorem Rotates.grows {rotatedId : Uuid} {data : NewToken} (rotates : db.Rotates row rotatedId data db')
    (found : db.refreshTokens.find row.id = some row) : db.Grows db' := by
  refine .of_users rotates.users fun key old found' => ?_
  rw [rotates.find key, if_neg]
  · split
    · rename_i here
      subst here
      obtain rfl := Option.some.inj (found.symm.trans found')
      exact ⟨_, rfl, .inr ⟨rotates.unrevoked, _, rfl⟩⟩
    · exact ⟨old, found', .refl old⟩
  · rintro rfl
    rw [rotates.fresh] at found'
    contradiction

theorem Touches.tokens {login : Option Uuid} (touches : db.Touches login db')
    (found : db.refreshTokens.find key = some row) :
    ∃ row', db'.refreshTokens.find key = some row' ∧ row.Later row' := by
  cases touches with
  | same same => exact ⟨row, same ▸ found, .refl row⟩
  | opened created => exact (createRefreshToken_grows created).tokens key row found
  | rotated found' rotates => exact (rotates.grows found').tokens key row found
  | revoked => exact revokeMany_grows.tokens key row found

theorem Touches.origin {login : Option Uuid} (touches : db.Touches login db')
    (found : db'.refreshTokens.find key = some row') : db.Origin db' key row' := by
  cases touches with
  | same same => exact .kept (same ▸ found) (.refl row') rfl
  | @opened id data _ created =>
    have rows := createRefreshToken_find created
    rw [rows] at found
    split at found
    · rename_i here
      subst here
      cases found
      refine .issued rfl (createRefreshToken_some created).1 fun other row there => ?_
      rw [rows] at there
      split at there
      · rename_i here
        exact .inl here.symm
      · exact .inr ⟨row, there, .refl row⟩
    · exact .kept found (.refl row') rfl
  | @rotated row rotatedId data _ stored rotates sameUser sameVersion =>
    have rows := rotates.find
    rw [rows] at found
    split at found
    · rename_i here
      subst here
      cases found
      refine .issued rfl rotates.free fun other row' there => ?_
      rw [rows] at there
      split at there
      · rename_i here
        exact .inl here.symm
      · split at there
        · rename_i here
          subst here
          cases there
          exact .inr ⟨row, stored, .inr ⟨rotates.unrevoked, _, rfl⟩⟩
        · exact .inr ⟨row', there, .refl row'⟩
    · split at found
      · rename_i here
        subst here
        cases found
        have next : db'.refreshTokens.find rotatedId = some (.issued rotatedId data) := by
          rw [rows, if_pos rfl]
        exact .replaced stored (.inr ⟨rotates.unrevoked, _, rfl⟩) rfl rfl next sameUser sameVersion
      · exact .kept found (.refl row') rfl
  | revoked where' =>
    rw [revokeMany_find] at found
    obtain ⟨row, there, same⟩ := Option.map_eq_some_iff.mp found
    split at same
    · rename_i revokes
      subst same
      exact .kept there (.inr ⟨revokes.2, _, rfl⟩) rfl
    · subst same
      exact .kept there (.refl row) rfl

/-- Where the replacement of a row is found, and what the two have in common. -/
structure Linked (db : Db) : Prop where
  successor : ∀ id row next, db.refreshTokens.find id = some row → row.replacedByTokenId = some next →
    ∃ row', db.refreshTokens.find next = some row' ∧ row'.userId = row.userId ∧
      row'.tokenVersion = row.tokenVersion
  replaced : ∀ id row, db.refreshTokens.find id = some row → row.replacedByTokenId.isSome = true →
    row.revoked = true
  hashes : ∀ id id' row row', db.refreshTokens.find id = some row → db.refreshTokens.find id' = some row' →
    row.token = row'.token → id = id'

theorem Linked.empty (none' : db.refreshTokens.rows = []) : db.Linked := by
  have absent : ∀ id, db.refreshTokens.find id = none := by
    intro id
    rw [Table.find_eq_none, none']
    exact fun _ member => absurd member List.not_mem_nil
  constructor <;> simp [absent]

theorem Linked.touched {login : Option Uuid} (linked : db.Linked) (touches : db.Touches login db') :
    db'.Linked where
  successor := by
    intro id row' next found link
    cases touches.origin found with
    | @kept row found' later same =>
      obtain ⟨successor, there, sameUser, sameVersion⟩ := linked.successor id row next found' (same ▸ link)
      obtain ⟨successor', there', later'⟩ := touches.tokens there
      obtain ⟨_, _, user, version, _⟩ := later.kept
      obtain ⟨_, _, user', version', _⟩ := later'.kept
      refine ⟨successor', there', ?_, ?_⟩
      · rw [user', user, sameUser]
      · rw [version', version, sameVersion]
    | replaced _ _ _ link' there sameUser sameVersion =>
      obtain rfl := Option.some.inj (link'.symm.trans link)
      exact ⟨_, there, sameUser, sameVersion⟩
    | issued unlinked =>
      rw [unlinked] at link
      contradiction
  replaced := by
    intro id row' found link
    cases touches.origin found with
    | @kept row found' later same =>
      have revoked := linked.replaced id row found' (same ▸ link)
      rw [later.final revoked]
      exact revoked
    | replaced _ _ revoked => exact revoked
    | issued unlinked =>
      rw [unlinked] at link
      contradiction
  hashes := by
    have fresh : ∀ {old old' new : RefreshToken} {id : Uuid}, db.refreshTokens.find id = some old →
        old.Later old' → (∀ row ∈ db.refreshTokens.rows, row.token ≠ new.token) →
        old'.token ≠ new.token := by
      intro old old' new id there later free
      rw [later.kept.2.1]
      exact free old (Table.mem_of_find there)
    have old : ∀ {id id' : Uuid} {row row' first : RefreshToken}, db'.refreshTokens.find id' = some row' →
        db.refreshTokens.find id = some first → first.Later row → row.token = row'.token → id = id' := by
      intro id id' row row' first found' there later same
      have known : ∀ {second : RefreshToken}, db.refreshTokens.find id' = some second →
          second.Later row' → id = id' := by
        intro second there' later'
        refine linked.hashes id id' first second there there' ?_
        rw [← later.kept.2.1, ← later'.kept.2.1, same]
      cases touches.origin found' with
      | kept there' later' | replaced there' later' => exact known there' later'
      | issued _ free => exact absurd same (fresh there later free)
    intro id id' row row' found found' same
    cases touches.origin found with
    | kept there later | replaced there later => exact old found' there later same
    | issued _ free only =>
      rcases only id' row' found' with rfl | ⟨second, there, later⟩
      · rfl
      · exact absurd same.symm (fresh there later free)

/-- A row is found under its hash, and no other is. -/
theorem Linked.found {token : String} {user : User} (linked : db.Linked)
    (stored : db.refreshTokens.find key = some row) (hash : row.token = token)
    (known : db.users.find row.userId = some user) : db.findRefreshToken token = some (row, user) := by
  have first : db.refreshTokens.rows.find? (fun row => row.token = token) = some row := by
    cases found : db.refreshTokens.rows.find? (fun row => row.token = token) with
    | none => exact absurd hash (by simpa using List.find?_eq_none.mp found row (Table.mem_of_find stored))
    | some other =>
      have there := Table.find_of_mem (List.mem_of_find?_eq_some found)
      have hash' : other.token = token := by simpa using List.find?_some found
      have same := linked.hashes other.id key other row there stored (hash'.trans hash.symm)
      exact there.symm.trans ((congrArg db.refreshTokens.find same).trans stored)
  simp only [findRefreshToken, Option.bind_eq_bind, first, known, Option.bind_some]

/-- The row a row was replaced by. -/
def replacedBy (db : Db) (id : Uuid) : Option Uuid :=
  (db.refreshTokens.find id).bind RefreshToken.replacedByTokenId

/-- The rows in chains, each begun by a login. -/
structure Sessions (db : Db) (logins : List Uuid) (chains : List (List Uuid)) : Prop where
  formed : Chains db.replacedBy (db.refreshTokens.rows.map RefreshToken.id) chains
  heads : chains.map List.head? = logins.map some

/-- The chains stay where the rows and their links do. -/
theorem Sessions.kept {chains : List (List Uuid)} (sessions : db.Sessions logins chains)
    (links : db'.replacedBy = db.replacedBy)
    (ids : db'.refreshTokens.rows.map RefreshToken.id = db.refreshTokens.rows.map RefreshToken.id) :
    db'.Sessions logins chains := by
  refine ⟨?_, sessions.heads⟩
  rw [links, ids]
  exact sessions.formed

/-- A login begins a chain. -/
theorem Sessions.opened {chains : List (List Uuid)} {data : NewToken} (sessions : db.Sessions logins chains)
    (created : db.createRefreshToken id data = some db') :
    db'.Sessions (logins ++ [id]) (chains ++ [[id]]) := by
  have rows := createRefreshToken_find created
  have fresh := createRefreshToken_fresh created
  refine ⟨?_, ?_⟩
  · rw [createRefreshToken_ids created]
    refine sessions.formed.start (Table.not_mem_keys fresh) ?_ fun a member => ?_
    · rw [replacedBy, rows, if_pos rfl]
      rfl
    · obtain ⟨row, found⟩ := Table.exists_find member
      rw [replacedBy, replacedBy, rows, if_neg]
      rintro rfl
      exact nomatch fresh.symm.trans found
  · rw [List.map_append, sessions.heads, List.map_append]
    rfl

/-- A rotation lengthens the chain of its row. -/
theorem Sessions.rotated {chains : List (List Uuid)} {rotatedId : Uuid} {data : NewToken}
    (sessions : db.Sessions logins chains) (linked : db.Linked)
    (stored : db.refreshTokens.find row.id = some row) (rotates : db.Rotates row rotatedId data db') :
    ∃ chains', db'.Sessions logins chains' := by
  have member : row.id ∈ db.refreshTokens.rows.map RefreshToken.id :=
    List.mem_map_of_mem (Table.mem_of_find stored)
  have unlinked : row.replacedByTokenId = none := by
    have revoked := linked.replaced row.id row stored
    rw [rotates.unrevoked] at revoked
    simpa using revoked
  have other : rotatedId ≠ row.id := by
    intro same
    exact nomatch (same ▸ rotates.fresh).symm.trans stored
  have ended : db.replacedBy row.id = none := by
    rw [replacedBy, stored]
    exact unlinked
  have points : db'.replacedBy row.id = some rotatedId := by
    rw [replacedBy, rotates.find, if_neg other, if_pos rfl]
    rfl
  have ends : db'.replacedBy rotatedId = none := by
    rw [replacedBy, rotates.find, if_pos rfl]
    rfl
  have kept : ∀ a ∈ db.refreshTokens.rows.map RefreshToken.id, a ≠ row.id →
      db'.replacedBy a = db.replacedBy a := by
    intro a member different
    obtain ⟨old, found⟩ := Table.exists_find member
    rw [replacedBy, replacedBy, rotates.find, if_neg, if_neg different]
    rintro rfl
    exact nomatch rotates.fresh.symm.trans found
  obtain ⟨chains', formed, heads⟩ :=
    sessions.formed.extend member ended (Table.not_mem_keys rotates.fresh) points ends kept
  refine ⟨chains', ?_, heads.trans sessions.heads⟩
  rw [rotates.ids]
  exact formed

theorem Touches.sessions {login : Option Uuid} {chains : List (List Uuid)} (linked : db.Linked)
    (touches : db.Touches login db') (sessions : db.Sessions logins chains) :
    ∃ chains', db'.Sessions (logins ++ login.toList) chains' := by
  cases touches with
  | same same =>
    rw [Option.toList_none, List.append_nil]
    refine ⟨chains, sessions.kept ?_ (by rw [same])⟩
    funext key
    rw [replacedBy, replacedBy, same]
  | opened created => exact ⟨_, sessions.opened created⟩
  | rotated stored rotates =>
    rw [Option.toList_none, List.append_nil]
    exact sessions.rotated linked stored rotates
  | revoked where' =>
    rw [Option.toList_none, List.append_nil]
    refine ⟨chains, sessions.kept ?_ revokeMany_ids⟩
    funext key
    rw [replacedBy, replacedBy, revokeMany_find]
    cases db.refreshTokens.find key with
    | none => rfl
    | some row =>
      rw [Option.map_some, Option.bind_some, Option.bind_some]
      split <;> rfl

/-- In a session the rows agree on the user and the version, a replaced row is revoked, and
only the last can be unrevoked. -/
theorem Sessions.rows {chains : List (List Uuid)} (sessions : db.Sessions logins chains)
    (linked : db.Linked) {chain : List Uuid} (member : chain ∈ chains) :
    (∀ row ∈ db.refreshTokens.rows, ∀ row' ∈ db.refreshTokens.rows, row.id ∈ chain → row'.id ∈ chain →
      row.userId = row'.userId ∧ row.tokenVersion = row'.tokenVersion) ∧
    ∀ row ∈ db.refreshTokens.rows, row.id ∈ chain → row.revoked = false →
      chain.getLast? = some row.id := by
  constructor
  · intro row stored row' stored' inside inside'
    have same := sessions.formed.constant
      (f := fun id => (db.refreshTokens.find id).map fun row => (row.userId, row.tokenVersion)) ?_
      member inside inside'
    · rw [Table.find_of_mem stored, Table.find_of_mem stored'] at same
      simpa using same
    · intro a known b link
      obtain ⟨row, found, link⟩ := Option.bind_eq_some_iff.mp link
      obtain ⟨next, found', sameUser, sameVersion⟩ := linked.successor a row b found link
      rw [found, found', Option.map_some, Option.map_some, sameUser, sameVersion]
  · intro row stored inside unrevoked
    have found := Table.find_of_mem stored
    refine sessions.formed.last_of_end member inside ?_
    have revoked := linked.replaced row.id row found
    rw [unrevoked] at revoked
    rw [replacedBy, found]
    simpa using revoked

end Db

/-! ### Every run -/

theorem logins_step : (history ++ [(service, occurrence)]).filterMap (fun point => opened point.2) =
    history.filterMap (fun point => opened point.2) ++ (opened occurrence).toList := by
  rw [List.filterMap_append]
  cases login : opened occurrence <;> simp [login]

section Run
variable (run : Runs.Run (Service.Step config argon2 faults) start history service)
include run

theorem run_sessions (started : start.Started) : service.world.db.Linked ∧
    ∃ chains, service.world.db.Sessions (history.filterMap fun point => opened point.2) chains := by
  induction run with
  | refl =>
    refine ⟨.empty started.refreshTokens, [], ?_, rfl⟩
    rw [started.refreshTokens]
    exact .empty
  | tail run step ih =>
    obtain ⟨linked, chains, sessions⟩ := ih
    have touches := step_touches run started.running step
    refine ⟨linked.touched touches, ?_⟩
    rw [logins_step]
    exact touches.sessions linked sessions

end Run

/-- At this point the rotation of a request with the token goes through. -/
def Exchanged (history : List (Service × Occurrence)) (n : Nat) (refreshToken : String) : Prop :=
  ∃ pool index id data rest, history[n]? = some (pool, .served index (.rotate id data) (.ok ())) ∧
    pool.running[index]? = some (.refresh refreshToken, rest)

/-- The request has ended with a new session for the token. -/
def Service.Renewed (service : Service) (index : Nat) (refreshToken : String) : Prop :=
  ∃ session, service.running[index]? = some (.refresh refreshToken, .done (.session session))

theorem step_rotates {data : NewToken}
    (step : Service.Step config argon2 faults service (.served index (.rotate id data) (.ok ())) service')
    (found : service.world.db.refreshTokens.find id = some row) :
    ∃ rotatedId, service.world.db.Rotates row rotatedId data service'.world.db := by
  cases step with
  | served _ answered =>
    cases answered with
    | executed executed =>
      cases executed with
      | rotated rotated => exact ⟨_, Db.rotate_ok rotated found⟩

section Exchange
variable {refreshToken : String} {n m : Nat}
  (run : Runs.Run (Service.Step config argon2 faults) start history service)
include run

/-- An exchange finds the row of the token unrevoked and leaves it revoked. -/
theorem exchanged_row (idle : start.running = []) {pool : Service} {data : NewToken}
    {rest : Process Failure Op Op.Answer Response}
    (here : history[n]? = some (pool, .served index (.rotate id data) (.ok ())))
    (found : pool.running[index]? = some (.refresh refreshToken, rest)) :
    ∃ row, pool.world.db.refreshTokens.find id = some row ∧
      row.token = hashRefreshToken config refreshToken ∧ row.revoked = false ∧
      ∀ after, Service.Step config argon2 faults pool (.served index (.rotate id data) (.ok ())) after →
        ∃ row', after.world.db.refreshTokens.find id = some row' ∧ row'.revoked = true := by
  obtain ⟨refreshToken', _, row, _, _, _, current, ⟨_, found'⟩, _, rfl, rfl, _, hash, _, there, later⟩ :=
    rotate_reads run idle here
  cases found.symm.trans found'
  obtain ⟨same, token, _⟩ := later.kept
  obtain ⟨_, _, step, _⟩ := run.pass here
  obtain ⟨_, rotates⟩ := step_rotates step there
  refine ⟨current, there, token.trans hash, rotates.unrevoked, fun after step => ?_⟩
  obtain ⟨rotatedId, rotates⟩ := step_rotates step there
  refine ⟨current.revoke (some rotatedId), ?_, rfl⟩
  rw [rotates.find, if_neg, if_pos same.symm]
  rintro rfl
  exact nomatch rotates.fresh.symm.trans there

theorem exchanged_before (started : start.Started) (first : Exchanged history n refreshToken)
    (second : Exchanged history m refreshToken) : ¬ n < m := by
  intro before
  obtain ⟨pool, _, id, _, _, here, found⟩ := first
  obtain ⟨pool', _, id', _, _, there, found'⟩ := second
  obtain ⟨row, stored, hash, _, revokes⟩ := exchanged_row run started.running here found
  obtain ⟨row', stored', hash', unrevoked, _⟩ := exchanged_row run started.running there found'
  obtain ⟨u, step, rest⟩ := run.between here there before
  obtain ⟨revoked, kept, final⟩ := revokes u step
  obtain ⟨last, kept', later⟩ := (run_grows rest).tokens id revoked kept
  obtain rfl := later.final final
  -- both rows are found under one hash
  obtain ⟨row'', found'', later'⟩ := (step_grows step).tokens id row stored
  obtain rfl := Option.some.inj (kept.symm.trans found'')
  have linked := (run_sessions (run.pass there).1 started).1
  obtain rfl : id = id' := by
    refine linked.hashes id id' _ row' kept' stored' ?_
    rw [later'.kept.2.1, hash, hash']
  obtain rfl := Option.some.inj (kept'.symm.trans stored')
  rw [unrevoked] at final
  contradiction

theorem exchanged_once (started : start.Started) (first : Exchanged history n refreshToken)
    (second : Exchanged history m refreshToken) : n = m := by
  rcases Nat.lt_trichotomy n m with before | same | after
  · exact absurd before (exchanged_before run started first second)
  · exact same
  · exact absurd after (exchanged_before run started second first)

/-- A new session rests on an exchange of the request's own. -/
theorem renewed_exchanged (idle : start.running = []) (renewed : service.Renewed index refreshToken) :
    ∃ n pool id data, history[n]? = some (pool, .served index (.rotate id data) (.ok ())) ∧
      Exchanged history n refreshToken := by
  obtain ⟨session, found⟩ := renewed
  have follows := run_follows run idle (handle_follows config) found
  obtain ⟨result, life, same⟩ := follows
  cases result with
  | error => contradiction
  | ok =>
    generalize told : Process.told index history = list at life
    cases life with
    | @rotated row user now later bytes =>
      have exchange : ⟨.rotate row.id (successor config row user bytes later), .ok ()⟩ ∈
          Process.told index history := by
        rw [told]
        simp
      obtain ⟨n, pool, here⟩ := told_at.mp exchange
      obtain ⟨endpoint, next, found', _⟩ := run_script run idle (handle_follows config) here
      obtain ⟨_, _, step, rest⟩ := run.pass here
      obtain ⟨_, last⟩ := run_request_kept (.head step rest) found'
      cases found.symm.trans last
      exact ⟨n, pool, _, _, here, pool, index, _, _, _, here, found'⟩

theorem renewed_once (started : start.Started) {i j : Nat} (first : service.Renewed i refreshToken)
    (second : service.Renewed j refreshToken) : i = j := by
  obtain ⟨n, _, _, _, here, exchanged⟩ := renewed_exchanged run started.running first
  obtain ⟨m, _, _, _, there, exchanged'⟩ := renewed_exchanged run started.running second
  obtain rfl := exchanged_once run started exchanged exchanged'
  cases here.symm.trans there
  rfl

end Exchange

/-- However the requests interleave, the rows form disjoint simple chains, one for each login
or registration; each token replaces one at most and is replaced by one at most; a chain is of
one user and one version, its replaced rows are revoked and only its last can be unrevoked;
and no token is exchanged twice. -/
theorem rotation_chains (run : Runs.Run (Service.Step config argon2 faults) start history service)
    (started : start.Started) :
    (∃ chains, service.world.db.Sessions (history.filterMap fun point => opened point.2) chains ∧
      ∀ chain ∈ chains,
        (∀ row ∈ service.world.db.refreshTokens.rows, ∀ row' ∈ service.world.db.refreshTokens.rows,
          row.id ∈ chain → row'.id ∈ chain →
            row.userId = row'.userId ∧ row.tokenVersion = row'.tokenVersion) ∧
        ∀ row ∈ service.world.db.refreshTokens.rows, row.id ∈ chain → row.revoked = false →
          chain.getLast? = some row.id) ∧
    (∀ row ∈ service.world.db.refreshTokens.rows, row.replacedByTokenId.isSome = true →
      row.revoked = true) ∧
    (∀ row ∈ service.world.db.refreshTokens.rows, ∀ row' ∈ service.world.db.refreshTokens.rows,
      row.replacedByTokenId.isSome = true → row.replacedByTokenId = row'.replacedByTokenId → row = row') ∧
    (∀ row ∈ service.world.db.refreshTokens.rows, ¬ Relation.TransGen
      (fun id next => service.world.db.replacedBy id = some next) row.id row.id) ∧
    (∀ refreshToken n m, Exchanged history n refreshToken → Exchanged history m refreshToken → n = m) ∧
    ∀ refreshToken i j, service.Renewed i refreshToken → service.Renewed j refreshToken → i = j := by
  obtain ⟨linked, chains, sessions⟩ := run_sessions run started
  have link : ∀ row ∈ service.world.db.refreshTokens.rows,
      service.world.db.replacedBy row.id = row.replacedByTokenId := by
    intro row member
    rw [Db.replacedBy, Table.find_of_mem member, Option.bind_some]
  refine ⟨⟨chains, sessions, fun chain member => sessions.rows linked member⟩, ?_, ?_, ?_, ?_, ?_⟩
  · exact fun row member => linked.replaced row.id row (Table.find_of_mem member)
  · intro row member row' member' replaced same
    obtain ⟨next, points⟩ := Option.isSome_iff_exists.mp replaced
    have first : service.world.db.replacedBy row.id = some next := (link row member).trans points
    have second : service.world.db.replacedBy row'.id = some next :=
      (link row' member').trans (same.symm.trans points)
    have here : row.id = row'.id :=
      sessions.formed.injective (List.mem_map_of_mem member) (List.mem_map_of_mem member') first second
    exact List.inj_on_of_nodup_map service.world.db.refreshTokens.nodup member member' here
  · exact fun row member => sessions.formed.acyclic (List.mem_map_of_mem member)
  · exact fun refreshToken n m first second => exchanged_once run started first second
  · exact fun refreshToken i j first second => renewed_once run started first second

/-- A registration and a refresh leave one chain of two rows, the first replaced. -/
theorem rotation_chains_sample : ∃ (service : Service) (history : List (Service × Occurrence))
    (chains : List (List Uuid)),
    service.world.db.refreshTokens.rows.map RefreshToken.revoked = [true, false] ∧
      history.filterMap (fun point => opened point.2) = [.repeated 0] ∧
      service.world.db.Sessions (history.filterMap fun point => opened point.2) chains := by
  have happens : ∃ played,
      Sample.plays Sample.start (Sample.registration ++ Sample.alone 1 6 (.refresh Sample.token)) =
        some played ∧
      played.2.world.db.refreshTokens.rows.map RefreshToken.revoked = [true, false] ∧
      played.1.filterMap (fun point => opened point.2) = [.repeated 0] := by
    decide
  obtain ⟨played, plays, revoked, logins⟩ := happens
  obtain ⟨⟨chains, sessions, _⟩, _⟩ := rotation_chains (Sample.plays_run plays) Sample.started
  exact ⟨played.2, played.1, chains, revoked, logins, sessions⟩

end Stellance.Auth
