import Stellance.Auth.Versions

/-! Access tokens after a logout from everywhere. The version is signed into every access
token and never looked at again, so until a token expires it opens every door it did before. -/
namespace Stellance.Auth
open AuthService
open Process hiding await
open Backend (Uuid UserRole)

/-- The token was issued to its user before a logout from everywhere that is over by now. -/
inductive Outlived (history : List (Service × Occurrence)) (n : Nat) (token : AccessToken) : Prop where
  | intro {s b c issuer other expiresIn : Nat}
      (issued : At history s issuer (.sign token.payload expiresIn) (.ok token)) (before : s < b)
      (raised : At history b other (.incrementTokenVersion token.payload.sub) (.ok ()))
      (onwards : b < c) (revoked : At history c other (.revokeAll token.payload.sub) (.ok ()))
      (gone : c < n) : Outlived history n token

/-- The request has ended with the identity of the token. -/
def Service.Admitted (service : Service) (index : Nat) (token : AccessToken) : Prop :=
  ∃ identity, service.running[index]? = some (.authenticate token, .done (.authenticated identity))

/-- No token is accepted that a logout from everywhere should have ended. -/
def EndsAccess (history : List (Service × Occurrence)) (service : Service) : Prop :=
  ∀ n index token pool answer, history[n]? = some (pool, .served index (.verifyJwt token) answer) →
    Outlived history n token → ¬ service.Admitted index token

/-- Every such token has expired when it is presented. -/
def AccessExpired (history : List (Service × Occurrence)) : Prop :=
  ∀ n index token pool answer, history[n]? = some (pool, .served index (.verifyJwt token) answer) →
    Outlived history n token → token.expiresAt ≤ pool.world.clock

section Service
variable {config : Config} {argon2 : String → String → Bool} {faults : Prop}
  {start service service' : Service} {history : List (Service × Occurrence)} {occurrence : Occurrence}
  {index n : Nat} {token : AccessToken} {told : List Exchange}

theorem authenticate_eq : handle config (.authenticate token) =
    .await (.verifyJwt token) fun answer =>
      match answer with
      | .ok () => .authenticated <$> JwtStrategy.validate token.payload
      | .error error => .fail error := by
  change Process.await _ _ = _
  congr
  funext answer
  cases answer <;> rfl

/-- Once the token was checked, the answer decides. -/
theorem authenticate_rest {rest : Process Failure Op Op.Answer Response}
    {answer : Except Failure Unit} (leads : (handle config (.authenticate token)).Leads told rest)
    (checked : (⟨.verifyJwt token, answer⟩ : Exchange) ∈ told) (access : token.payload.typ = some "access") :
    (∃ identity, rest = .done (.authenticated identity)) ↔ answer = .ok () := by
  have validated : (Response.authenticated <$> JwtStrategy.validate token.payload : Request Response) =
      .done (.authenticated ⟨token.payload.sub, token.payload.email, token.payload.role⟩) := by
    unfold JwtStrategy.validate
    rw [access]
    rfl
  rw [authenticate_eq] at leads
  cases leads with
  | refl => contradiction
  | @step _ _ given told _ leads =>
    cases given with
    | ok =>
      dsimp only at leads
      rw [validated] at leads
      cases leads with
      | refl =>
        obtain same := List.mem_singleton.mp checked
        cases same
        exact iff_of_true ⟨_, rfl⟩ rfl
    | error error =>
      cases leads with
      | refl =>
        obtain same := List.mem_singleton.mp checked
        cases same
        exact iff_of_false (fun ⟨_, same⟩ => nomatch same) nofun

theorem step_signed {payload : JwtPayload} {expiresIn : Nat}
    (step : Service.Step config argon2 faults service (.served index (.sign payload expiresIn) (.ok token))
      service') : token ∈ service'.world.signed := by
  cases step with
  | served _ answered =>
    cases answered with
    | signed => exact List.mem_append_right _ List.mem_cons_self
    | executed executed => cases executed

section Run
variable (run : Runs.Run (Service.Step config argon2 faults) start history service)
include run

theorem run_signed : ∀ token ∈ start.world.signed, token ∈ service.world.signed := by
  induction run with
  | refl => exact fun _ member => member
  | tail _ step ih =>
    intro token member
    have known := ih token member
    cases step with
    | start => exact known
    | served _ answered =>
      cases answered with
      | signed => exact List.mem_append_left _ known
      | _ => exact known
    | outside around =>
      cases around
      exact known

/-- What was issued is known as issued ever after. -/
theorem issued_signed {s issuer expiresIn : Nat} {pool : Service}
    {event : Occurrence} (issued : At history s issuer (.sign token.payload expiresIn) (.ok token))
    (here : history[n]? = some (pool, event)) (before : s < n) : token ∈ pool.world.signed := by
  obtain ⟨_, there⟩ := issued
  obtain ⟨_, step, rest⟩ := run.between there here before
  exact run_signed rest token (step_signed step)

variable (idle : start.running = [])
include idle

theorem issued_access {s issuer expiresIn : Nat}
    (issued : At history s issuer (.sign token.payload expiresIn) (.ok token)) :
    token.payload.typ = some "access" := by
  obtain ⟨_, here⟩ := issued
  obtain ⟨_, _, _, script⟩ := run_script run idle (handle_follows config) here
  generalize Process.told issuer (history.take s) = told at script
  cases script with
  | idle _ access => exact access _ _ rfl

/-- A token is accepted where its check goes through. -/
theorem admitted_iff {pool : Service} {answer : Except Failure Unit}
    (here : history[n]? = some (pool, .served index (.verifyJwt token) answer))
    (access : token.payload.typ = some "access") : service.Admitted index token ↔ answer = .ok () := by
  obtain ⟨endpoint, next, found, script⟩ := run_script run idle (handle_follows config) here
  generalize Process.told index (history.take n) = told at script
  cases script with
  | idle idle => contradiction
  | verify =>
    obtain ⟨_, _, step, rest⟩ := run.pass here
    obtain ⟨left, there⟩ := run_request_kept (.head step rest) found
    have checked : (⟨.verifyJwt token, answer⟩ : Exchange) ∈ Process.told index history :=
      told_at.mpr ⟨n, _, here⟩
    rw [← authenticate_rest (run_leads run idle there) checked access, Service.Admitted, there]
    simp

end Run

/-- What the library makes of a token it has issued. -/
theorem verified_iff {answer : Except Failure Unit} (sound : ¬ faults)
    (step : Service.Step config argon2 faults service (.served index (.verifyJwt token) answer) service')
    (genuine : token ∈ service.world.signed) : answer = .ok () ↔ service.world.clock < token.expiresAt := by
  cases step with
  | served _ answered =>
    cases answered with
    | accepted _ fresh => exact iff_of_true rfl fresh
    | rejected invalid =>
      have expired := invalid.resolve_left fun unknown => unknown genuine
      exact iff_of_false nofun (Nat.not_lt.mpr expired)
    | faulted fault => exact absurd fault sound
    | executed executed => cases executed

theorem verified_fresh
    (step : Service.Step config argon2 faults service (.served index (.verifyJwt token) (.ok ())) service') :
    service.world.clock < token.expiresAt := by
  cases step with
  | served _ answered =>
    cases answered with
    | accepted _ fresh => exact fresh
    | executed executed => cases executed

/-- A logout from everywhere ends the access tokens issued before it, in every run in which
they have expired when they are presented; and where no check fails for reasons of its own,
in no other. -/
theorem logoutAll_ends_access_iff (run : Runs.Run (Service.Step config argon2 faults) start history service)
    (started : start.Started) :
    (AccessExpired history → EndsAccess history service) ∧
      (¬ faults → EndsAccess history service → AccessExpired history) := by
  constructor
  · intro expired n index token pool answer here outlived admitted
    have expired := expired n index token pool answer here outlived
    obtain @⟨s, b, c, issuer, other, expiresIn, issued, _⟩ := outlived
    have access := issued_access run started.running issued
    have accepted := (admitted_iff run started.running here access).mp admitted
    obtain ⟨_, _, step, _⟩ := run.pass here
    rw [accepted] at step
    exact absurd (verified_fresh step) (Nat.not_lt.mpr expired)
  · intro sound ends n index token pool answer here outlived
    by_contra fresh
    refine ends n index token pool answer here outlived ?_
    obtain @⟨s, b, c, issuer, other, expiresIn, issued, before, _, onwards, _, gone⟩ := outlived
    refine (admitted_iff run started.running here (issued_access run started.running issued)).mpr ?_
    obtain ⟨_, _, step, _⟩ := run.pass here
    have genuine := issued_signed run issued here (by omega)
    exact (verified_iff sound step genuine).mpr (Nat.not_le.mp fresh)

end Service

namespace Sample

/-- The access token of the registration. -/
def access : AccessToken := ⟨⟨"a@b.c", userId, .client, 0, some "access"⟩, 900000⟩

/-- A registration and a logout from everywhere. -/
def leaving : List (Process.Move Endpoint) := registration ++ alone 1 2 (.logoutAll userId)

end Sample

/-- The access token of a registration still opens the door after a logout from everywhere. -/
theorem logoutAll_ends_access_fails : ¬ ∀ (start service : Service) (history : List (Service × Occurrence)),
    Runs.Run (Service.Step Sample.config Sample.argon2 False) start history service → start.Started →
    EndsAccess history service := by
  intro always
  have happens : ∃ played,
      Sample.plays Sample.start (Sample.leaving ++ Sample.alone 2 1 (.authenticate Sample.access)) =
        some played ∧
      (played.1.map Prod.snd)[4]? = some (.served 0 (.sign Sample.access.payload 900000) (.ok Sample.access)) ∧
      (played.1.map Prod.snd)[9]? = some (.served 1 (.incrementTokenVersion Sample.userId) (.ok ())) ∧
      (played.1.map Prod.snd)[10]? = some (.served 1 (.revokeAll Sample.userId) (.ok ())) ∧
      (played.1.map Prod.snd)[12]? = some (.served 2 (.verifyJwt Sample.access) (.ok ())) ∧
      played.2.running[2]? = some (.authenticate Sample.access,
        .done (.authenticated ⟨Sample.userId, "a@b.c", .client⟩)) :=
    ⟨_, rfl, rfl, rfl, rfl, rfl, rfl⟩
  obtain ⟨⟨history, service⟩, plays, issued, raised, revoked, presented, admitted⟩ := happens
  obtain ⟨pool, here⟩ := Sample.at_of_map presented
  have outlived : Outlived history 12 Sample.access :=
    .intro (Sample.at_of_map issued) (by decide) (Sample.at_of_map raised) (by decide)
      (Sample.at_of_map revoked) (by decide)
  exact always _ service history (Sample.plays_run plays) Sample.started 12 2 _ pool _ here outlived
    ⟨_, admitted⟩

namespace Sample

/-- The service a quarter of an hour after the start. -/
def aged (service : Service) : Service := ⟨{ service.world with clock := 900000 }, service.running⟩

def expired (point : Service × Occurrence) : Bool :=
  match point.2 with
  | .served _ (.verifyJwt token) _ => token.expiresAt ≤ point.1.world.clock
  | _ => true

end Sample

/-- The same token, presented when its time is over. -/
theorem logoutAll_ends_access_iff_sample : ∃ (service : Service) (history : List (Service × Occurrence)),
    Outlived history 13 Sample.access ∧ EndsAccess history service := by
  have happens : ∃ left, Sample.plays Sample.start Sample.leaving = some left ∧
      ∃ late, Sample.plays (Sample.aged left.2) (Sample.alone 2 1 (.authenticate Sample.access)) = some late ∧
      left.2.world.clock ≤ 900000 ∧
      ((left.1 ++ (left.2, .outside) :: late.1).map Prod.snd)[4]? =
        some (.served 0 (.sign Sample.access.payload 900000) (.ok Sample.access)) ∧
      ((left.1 ++ (left.2, .outside) :: late.1).map Prod.snd)[9]? =
        some (.served 1 (.incrementTokenVersion Sample.userId) (.ok ())) ∧
      ((left.1 ++ (left.2, .outside) :: late.1).map Prod.snd)[10]? =
        some (.served 1 (.revokeAll Sample.userId) (.ok ())) ∧
      (left.1 ++ (left.2, .outside) :: late.1).all Sample.expired = true :=
    ⟨_, rfl, _, rfl, by decide, rfl, rfl, rfl, rfl⟩
  obtain ⟨left, first, late, second, later, issued, raised, revoked, expired⟩ := happens
  have passes : Service.Step Sample.config Sample.argon2 False left.2 .outside (Sample.aged left.2) :=
    .outside (.passes later)
  have run := (Sample.plays_run first).trans (.head passes (Sample.plays_run second))
  refine ⟨late.2, _, ?_, (logoutAll_ends_access_iff run Sample.started).1 ?_⟩
  · exact .intro (Sample.at_of_map issued) (by decide) (Sample.at_of_map raised) (by decide)
      (Sample.at_of_map revoked) (by decide)
  · intro n index token pool answer here _
    have checked := List.all_eq_true.mp expired _ (List.mem_of_getElem? here)
    simpa [Sample.expired] using checked

end Stellance.Auth
