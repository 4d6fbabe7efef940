import Stellance.Auth.AccessTokens

/-! Who is let in. A session is opened by a registration or by a login whose password was
verified, and goes on by its own tokens; so behind every row that is stored and every token
that is signed there is a request that came with the email and the password of the user. -/
namespace Stellance.Auth
open AuthService
open Process hiding await
open Backend (Uuid UserRole)

/-- The email and the password a request comes with. -/
def Endpoint.credentials : Endpoint → Option (String × String)
  | .register dto => some (dto.email, dto.password)
  | .login email password => some (email, password)
  | _ => none

/-- One of the requests made so far came with the email and the password of the user. -/
inductive Service.Entered (argon2 : String → String → Bool) (service : Service) (userId : Uuid) : Prop where
  | intro {index : Nat} {endpoint : Endpoint} {rest : Process Failure Op Op.Answer Response} {password : String}
      {user : User} (asked : service.running[index]? = some (endpoint, rest))
      (stored : service.world.db.users.find userId = some user)
      (came : endpoint.credentials = some (user.email, password)) (verifies : argon2 user.password password = true)

/-- How a request has come to know a user. -/
inductive Known (endpoint : Endpoint) (told : List Exchange) (user : User) : Prop where
  | made {dto : RegisterDto} {data : NewUser} (asked : endpoint = .register dto) (email : data.email = dto.email)
      (hashed : (⟨.hashPassword dto.password, .ok data.passwordHash⟩ : Exchange) ∈ told)
      (made : (⟨.createUser data, .ok user⟩ : Exchange) ∈ told)
  | verified {email password : String} (asked : endpoint = .login email password)
      (found : (⟨.findUserByEmail email, .ok (some user)⟩ : Exchange) ∈ told)
      (verified : (⟨.verifyPassword user.password password, .ok true⟩ : Exchange) ∈ told)
  | read {token : String} {row : RefreshToken} (read : seen token row user ∈ told)

/-- The operation gives something out in the name of a user. -/
def Op.Trusts : Op → Prop
  | .sign .. | .createRefreshToken _ => True
  | _ => False

/-- What is given out is for a user the request knows. -/
def Vouches (endpoint : Endpoint) (told : List Exchange) : Op → Prop
  | .sign granted _ => ∃ user, granted = payload user.result ∧ Known endpoint told user
  | .createRefreshToken data => ∃ user, data.userId = user.id ∧ Known endpoint told user
  | _ => True

section Credentials
variable {config : Config} {argon2 : String → String → Bool} {faults : Prop} {db db' : Db} {userId key : Uuid}
  {row : RefreshToken} {user : User} {op : Op} {answer : Except Failure op.Answer} {token : AccessToken}
  {endpoint : Endpoint} {told : List Exchange} {start service service' : Service}
  {history : List (Service × Occurrence)} {occurrence : Occurrence} {index n : Nat}

/-! ### The requests -/

theorem Known.more (known : Known endpoint told user) (more : List Exchange) : Known endpoint (told ++ more) user := by
  cases known with
  | made asked email hashed made =>
    exact .made asked email (List.mem_append_left _ hashed) (List.mem_append_left _ made)
  | verified asked found verified =>
    exact .verified asked (List.mem_append_left _ found) (List.mem_append_left _ verified)
  | read read => exact .read (List.mem_append_left _ read)

theorem vouches_quiet (op : Op) (quiet : ¬ op.Trusts) : Vouches endpoint told op := by
  cases op <;> first | trivial | exact absurd trivial quiet

theorem quiet_logoutAll : (logoutAll userId).Never Op.Trusts := by
  unfold logoutAll
  exact never_bind (never_perform id) fun _ => never_perform id

theorem quiet_rotate {data : NewToken} : (rotateOrLogoutAll row data).Never Op.Trusts := by
  refine never_tryCatch (never_perform id) fun error => ?_
  dsimp only
  split
  · exact never_bind quiet_logoutAll fun _ => trivial
  · trivial

theorem login_vouches (known : Known endpoint told user) :
    (login config user.result).Follows (Vouches endpoint) (fun _ _ => True) told := by
  unfold login
  refine follows_perform ⟨user, rfl, known⟩ (fun _ => trivial) fun access => ?_
  refine follows_perform trivial (fun _ => trivial) fun bytes => ?_
  refine follows_perform trivial (fun _ => trivial) fun now => ?_
  refine follows_perform ⟨user, rfl, ?_⟩ (fun _ => trivial) fun _ => trivial
  exact ((known.more _).more _).more _

theorem refresh_vouches {refreshToken : String} :
    (refresh config refreshToken).Follows (Vouches endpoint) (fun _ _ => True) [] := by
  unfold refresh
  refine follows_throwIf (fun _ => trivial) fun _ => ?_
  refine follows_perform trivial (fun _ => trivial) fun found => ?_
  refine follows_orThrow (fun _ => trivial) ?_
  rintro ⟨existing, user⟩ rfl
  have known : Known endpoint [seen (hashRefreshToken config refreshToken) existing user] user :=
    .read List.mem_cons_self
  dsimp only
  split
  · split
    · exact follows_past quiet_logoutAll (fun _ => vouches_quiet) (fun _ _ => trivial) fun _ _ => trivial
    · trivial
  · refine follows_perform trivial (fun _ => trivial) fun now => ?_
    refine follows_throwIf (fun _ => trivial) fun _ => ?_
    refine follows_throwIf (fun _ => trivial) fun _ => ?_
    refine follows_perform trivial (fun _ => trivial) fun bytes => ?_
    refine follows_perform trivial (fun _ => trivial) fun later => ?_
    refine follows_past quiet_rotate (fun _ => vouches_quiet) (fun _ _ => trivial) fun more _ => ?_
    refine follows_perform ⟨user, rfl, ?_⟩ (fun _ => trivial) fun _ => trivial
    exact (((known.more _).more _).more _).more _

/-- Whatever a request gives out, it gives out to a user it knows. -/
theorem handle_vouches (config : Config) (endpoint : Endpoint) :
    (handle config endpoint).Follows (Vouches endpoint) (fun _ _ => True) [] := by
  cases endpoint with
  | register dto =>
    apply follows_map
    unfold register
    refine follows_perform trivial (fun _ => trivial) fun existing => ?_
    refine follows_throwIf (fun _ => trivial) fun _ => ?_
    refine follows_perform trivial (fun _ => trivial) fun hash => ?_
    refine follows_perform trivial (fun _ => trivial) fun user => ?_
    refine follows_bind (login_vouches ?_) (fun _ _ _ => trivial) fun _ _ _ => trivial
    exact .made rfl rfl (by simp) (List.mem_append_right _ List.mem_cons_self)
  | login email password =>
    apply follows_map
    unfold LocalStrategy.validate validateUser
    rw [Process.bind_assoc, Process.bind_assoc]
    refine follows_perform trivial (fun _ => trivial) fun found => ?_
    cases found with
    | none => trivial
    | some user =>
      rw [Process.bind_assoc]
      refine follows_perform trivial (fun _ => trivial) fun verified => ?_
      cases verified with
      | false => trivial
      | true => exact login_vouches (.verified rfl (by simp) (List.mem_append_right _ List.mem_cons_self))
  | refresh refreshToken =>
    apply follows_map
    exact refresh_vouches
  | revokeRefreshToken refreshToken =>
    apply follows_map
    unfold revokeRefreshToken
    split
    · trivial
    · refine ⟨trivial, fun answer => ?_⟩
      cases answer <;> trivial
  | logoutAll userId =>
    apply follows_map
    unfold logoutAll
    refine follows_perform trivial (fun _ => trivial) fun _ => ⟨trivial, fun answer => ?_⟩
    cases answer <;> trivial
  | authenticate token =>
    apply follows_map
    refine follows_perform trivial (fun _ => trivial) fun _ => ?_
    unfold JwtStrategy.validate
    exact follows_throwIf (fun _ => trivial) fun _ => trivial

/-! ### The answers -/

theorem createUser_made {data : NewUser} (created : db.createUser key data = some (user, db')) :
    user.email = data.email ∧ user.password = data.passwordHash := by
  simp only [Db.createUser, Option.bind_eq_bind, Option.bind_eq_some_iff] at created
  obtain ⟨_, _, _, _, same⟩ := created
  cases same
  exact ⟨rfl, rfl⟩

theorem step_made {data : NewUser}
    (step : Service.Step config argon2 faults service (.served index (.createUser data) (.ok user)) service') :
    user.email = data.email ∧ user.password = data.passwordHash := by
  cases step with
  | served _ answered =>
    cases answered with
    | executed executed =>
      cases executed with
      | createdUser created => exact createUser_made created

theorem step_email {email : String}
    (step : Service.Step config argon2 faults service (.served index (.findUserByEmail email) (.ok (some user)))
      service') : user.email = email := by
  cases step with
  | served _ answered =>
    cases answered with
    | executed executed =>
      generalize same : (some user : Option User) = found at executed
      cases executed
      simpa using List.find?_some same.symm

theorem step_hashes {hash password : String}
    (step : Service.Step config argon2 faults service (.served index (.hashPassword password) (.ok hash)) service') :
    argon2 hash password = true := by
  cases step with
  | served _ answered =>
    cases answered with
    | hashed verifies => exact verifies
    | executed executed => cases executed

theorem step_verifies {hash password : String}
    (step : Service.Step config argon2 faults service (.served index (.verifyPassword hash password) (.ok true))
      service') : argon2 hash password = true := by
  cases step with
  | served _ answered =>
    generalize same : (Except.ok true : Except Failure Bool) = verified at answered
    cases answered with
    | verified => exact (Except.ok.inj same).symm
    | executed executed => cases executed
    | faulted => contradiction

/-- A token is signed as its request asks for it. -/
theorem step_signs (step : Service.Step config argon2 faults service occurrence service')
    (signed : token ∈ service'.world.signed) : token ∈ service.world.signed ∨
      ∃ index expiresIn, occurrence = .served index (.sign token.payload expiresIn) (.ok token) := by
  cases step with
  | start => exact .inl signed
  | @served _ _ index _ _ _ _ _ _ answered =>
    cases answered with
    | signed granted expiresIn =>
      rcases List.mem_append.mp signed with before | new
      · exact .inl before
      · obtain rfl := List.mem_singleton.mp new
        exact .inr ⟨index, expiresIn, rfl⟩
    | _ => exact .inl signed
  | outside around =>
    cases around
    exact .inl signed

/-! ### In a run -/

section Run
variable (run : Runs.Run (Service.Step config argon2 faults) start history service)
include run

/-- Whom a request has read is in the tables ever after, with the email and the password. -/
theorem read_later {exchange : Exchange} (member : exchange ∈ Process.told index history)
    (found : reads exchange = some user) :
    ∃ current, service.world.db.users.find user.id = some current ∧ user.Later current := by
  obtain ⟨_, _, here⟩ := told_at.mp member
  obtain ⟨_, _, step, rest⟩ := run.pass here
  exact (run_grows rest).users user.id user (step_reads step found)

theorem Service.Entered.later (entered : start.Entered argon2 userId) : service.Entered argon2 userId := by
  obtain ⟨asked, stored, came, verifies⟩ := entered
  obtain ⟨_, there⟩ := run_request_kept run asked
  obtain ⟨current, stored', _, rfl⟩ := (run_grows run).users userId _ stored
  exact .intro there stored' came verifies

/-- Whom a request knows has entered, where the rows it may have read are of such users. -/
theorem Known.entered {rest : Process Failure Op Op.Answer Response}
    (asked : service.running[index]? = some (endpoint, rest))
    (known : Known endpoint (Process.told index history) user)
    (rows : ∀ key row, service.world.db.refreshTokens.find key = some row → service.Entered argon2 row.userId) :
    service.Entered argon2 user.id ∧
      ∃ current, service.world.db.users.find user.id = some current ∧ user.Later current := by
  cases known with
  | @made dto data request email hashed made =>
    obtain ⟨current, stored, later⟩ := read_later run made rfl
    refine ⟨?_, current, stored, later⟩
    obtain ⟨_, _, here⟩ := told_at.mp made
    obtain ⟨_, _, step, _⟩ := run.pass here
    obtain ⟨email', password⟩ := step_made step
    obtain ⟨_, _, before⟩ := told_at.mp hashed
    obtain ⟨_, _, hashes, _⟩ := run.pass before
    obtain ⟨_, rfl⟩ := later
    have verifies : argon2 user.password dto.password = true := password ▸ step_hashes hashes
    refine .intro asked stored ?_ verifies
    rw [request, Endpoint.credentials, ← email, ← email']
  | @verified email password request found verified =>
    obtain ⟨current, stored, later⟩ := read_later run found rfl
    refine ⟨?_, current, stored, later⟩
    obtain ⟨_, _, here⟩ := told_at.mp found
    obtain ⟨_, _, step, _⟩ := run.pass here
    have email' := step_email step
    obtain ⟨_, _, there⟩ := told_at.mp verified
    obtain ⟨_, _, verifies, _⟩ := run.pass there
    obtain ⟨_, rfl⟩ := later
    refine .intro asked stored ?_ (step_verifies verifies)
    rw [request, Endpoint.credentials, ← email']
  | @read token row read =>
    obtain ⟨_, owner, ⟨current, stored, later⟩, known⟩ := seen_known run read
    rw [owner]
    refine ⟨?_, known⟩
    have entered := rows row.id current stored
    rw [later.kept.2.2.1] at entered
    exact entered

variable (idle : start.running = [])
include idle

/-- A row is stored for a user who has entered, where the rows before it are. -/
theorem issues_entered {data : NewToken} (here : history[n]? = some (service', .served index op answer))
    (issues : op.issues = some data)
    (rows : ∀ key row, service'.world.db.refreshTokens.find key = some row → service'.Entered argon2 row.userId) :
    service'.Entered argon2 data.userId := by
  obtain ⟨before, _⟩ := run.pass here
  cases op with
  | createRefreshToken made =>
    cases issues
    obtain ⟨endpoint, _, found, vouches⟩ := run_script run idle (handle_vouches config) here
    obtain ⟨user, own, known⟩ := vouches
    rw [own]
    exact (known.entered before found rows).1
  | rotate existingId made =>
    cases issues
    obtain ⟨_, _, row, _, _, _, current, _, _, _, rfl, _, _, _, stored, later⟩ := rotate_reads run idle here
    have entered := rows row.id current stored
    rw [later.kept.2.2.1] at entered
    exact entered
  | _ => contradiction

theorem rows_entered (none' : start.world.db.refreshTokens.rows = []) :
    ∀ key row, service.world.db.refreshTokens.find key = some row → service.Entered argon2 row.userId := by
  induction run with
  | refl =>
    intro key row found
    have member := Table.mem_of_find found
    rw [none'] at member
    contradiction
  | @tail history before occurrence after run step ih =>
    intro key row found
    rcases step_row step found with ⟨old, there, later⟩ | ⟨index, op, answer, data, rfl, issues, of⟩
    · rw [later.kept.2.2.1]
      exact (ih key old there).later (.head step .refl)
    · have last : (history ++ [(before, .served index op answer)])[history.length]? =
          some (before, .served index op answer) := List.getElem?_concat_length
      rw [of.2.1]
      exact (issues_entered (run.tail step) idle last issues ih).later (.head step .refl)

/-- A token that was signed names a user as the user is stored, version apart. -/
theorem signed_entered (none' : start.world.db.refreshTokens.rows = []) (unsigned : start.world.signed = []) :
    ∀ token ∈ service.world.signed, service.Entered argon2 token.payload.sub ∧
      ∃ user, service.world.db.users.find token.payload.sub = some user ∧ token.payload.email = user.email ∧
        token.payload.role = user.role := by
  induction run with
  | refl =>
    intro token member
    rw [unsigned] at member
    contradiction
  | @tail history before occurrence after run step ih =>
    intro token member
    rcases step_signs step member with old | ⟨index, expiresIn, rfl⟩
    · obtain ⟨entered, user, stored, email, role⟩ := ih token old
      obtain ⟨current, stored', _, rfl⟩ := (step_grows step).users _ user stored
      exact ⟨entered.later (.head step .refl), _, stored', email, role⟩
    · have last : (history ++ [(before, .served index (.sign token.payload expiresIn) (.ok token))])[history.length]? =
          some (before, .served index (.sign token.payload expiresIn) (.ok token)) := List.getElem?_concat_length
      obtain ⟨endpoint, _, found, user, same, known⟩ := run_script (run.tail step) idle (handle_vouches config) last
      rw [List.take_left] at known
      obtain ⟨entered, current, stored, _, rfl⟩ := known.entered run found (rows_entered run idle none')
      obtain ⟨current, stored', _, rfl⟩ := (step_grows step).users _ _ stored
      rw [same]
      exact ⟨entered.later (.head step .refl), _, stored', rfl, rfl⟩

end Run

/-- Who is let in was so on a token whose check went through. -/
theorem admitted_leads {identity : Identity}
    (leads : (handle config (.authenticate token)).Leads told (.done (.authenticated identity))) :
    (⟨.verifyJwt token, .ok ()⟩ : Exchange) ∈ told ∧
      identity = ⟨token.payload.sub, token.payload.email, token.payload.role⟩ := by
  have follows : (handle config (.authenticate token)).Follows (fun _ _ => True) (fun told result => ∀ identity,
      result = .ok (.authenticated identity) → (⟨.verifyJwt token, .ok ()⟩ : Exchange) ∈ told ∧
        identity = ⟨token.payload.sub, token.payload.email, token.payload.role⟩) [] := by
    apply follows_map
    refine follows_perform trivial (fun _ _ => nofun) fun _ => ?_
    unfold JwtStrategy.validate
    refine follows_throwIf (fun _ _ => nofun) fun _ => ?_
    rintro identity ⟨⟩
    exact ⟨List.mem_append_right _ List.mem_cons_self, rfl⟩
  exact leads.follows follows identity rfl

theorem step_accepts
    (step : Service.Step config argon2 faults service (.served index (.verifyJwt token) (.ok ())) service') :
    token ∈ service.world.signed := by
  cases step with
  | served _ answered =>
    cases answered with
    | accepted genuine => exact genuine
    | executed executed => cases executed

/-- Nobody gets in without a password. Behind every row that is stored, however often it was
exchanged, and behind every request that is let in by an access token there is a request of the
same run that came with the email of the user and a password that goes with the stored hash; and
who is let in has the email and the role that are stored of the user. -/
theorem entrance_earned (run : Runs.Run (Service.Step config argon2 faults) start history service)
    (started : start.Started) :
    (∀ row ∈ service.world.db.refreshTokens.rows, service.Entered argon2 row.userId) ∧
      ∀ (index : Nat) (token : AccessToken) (identity : Identity),
        service.running[index]? = some (.authenticate token, .done (.authenticated identity)) →
        service.Entered argon2 identity.id ∧ ∃ user, service.world.db.users.find identity.id = some user ∧
          identity.email = user.email ∧ identity.role = user.role := by
  obtain ⟨idle, none', unsigned⟩ := started
  refine ⟨fun row member => rows_entered run idle none' row.id row (Table.find_of_mem member), ?_⟩
  intro index token identity admitted
  obtain ⟨checked, rfl⟩ := admitted_leads (run_leads run idle admitted)
  obtain ⟨n, pool, here⟩ := told_at.mp checked
  obtain ⟨before, _, step, rest⟩ := run.pass here
  obtain ⟨entered, user, stored, email, role⟩ := signed_entered before idle none' unsigned token (step_accepts step)
  obtain ⟨current, stored', _, rfl⟩ := ((step_grows step).trans (run_grows rest)).users _ user stored
  exact ⟨entered.later (.head step rest), _, stored', email, role⟩

end Credentials

/-- A registration, and a request with its access token. -/
theorem entrance_earned_sample : ∃ service : Service, service.running[1]? = some (.authenticate Sample.access,
    .done (.authenticated ⟨Sample.userId, "a@b.c", .client⟩)) ∧
      service.Entered Sample.argon2 Sample.userId := by
  have happens : ∃ played, Sample.plays Sample.start
      (Sample.registration ++ Sample.alone 1 1 (.authenticate Sample.access)) = some played ∧
      played.2.running[1]? = some (.authenticate Sample.access,
        .done (.authenticated ⟨Sample.userId, "a@b.c", .client⟩)) :=
    ⟨_, rfl, rfl⟩
  obtain ⟨⟨history, service⟩, plays, admitted⟩ := happens
  obtain ⟨_, earned⟩ := entrance_earned (Sample.plays_run plays) Sample.started
  exact ⟨service, admitted, (earned 1 _ _ admitted).1⟩

end Stellance.Auth
