import Mathlib.Logic.Function.Basic
import Stellance.Auth.Holders

/-! Browsers. A refresh token is handed out as a cookie, goes along with every refresh and
logout, and is replaced by what the next answer brings; answers arrive late or never, and
requests do not wait for each other. A browser that sends a cookie again only where it was refused
stays logged in until its token expires. -/
namespace Stellance.Auth
open AuthService
open Process hiding await
open Backend (Uuid UserRole)

/-- What a browser is asked to do; the cookie is not part of it. -/
inductive Visit where
  | register (dto : RegisterDto)
  | login (email password : String)
  | refresh
  | logout
  | logoutAll (userId : Uuid)
  | guarded (token : AccessToken)

/-- The refresh token that an answer hands out. -/
def Response.refreshToken : Response → Option String
  | .registered _ tokens | .session tokens => some tokens.refreshToken
  | .done | .authenticated _ => none

namespace AuthController

/-- The request of a visit, with `req.cookies['refresh_token']`; the empty token is none. -/
def endpoint (cookie : Option String) : Visit → Endpoint
  | .register dto => .register dto
  | .login email password => .login email password
  | .refresh => .refresh (cookie.getD "")
  | .logout => .revokeRefreshToken (cookie.getD "")
  | .logoutAll userId => .logoutAll userId
  | .guarded token => .authenticate token

/-- The cookie after an answer: it is set to a new token, or cleared by a logout; an error leaves it,
and so do the requests that are not for this controller. -/
def cookie (before : Option String) : Endpoint → Except Failure Response → Option String
  | .authenticate _, _ | _, .error _ => before
  | _, .ok response => response.refreshToken

end AuthController

/-- The service and the browsers around it. -/
structure Site (β : Type) where
  service : Service
  /-- Whose each request is, and whether its answer has arrived. -/
  sent : List (β × Bool)
  cookie : β → Option String

inductive Happening (β : Type) where
  | sends (browser : β) (visit : Visit)
  | goesOn (occurrence : Occurrence)
  | arrives (index : Nat)
  | drops (browser : β)

section Browsers
variable {β : Type} [DecidableEq β]

inductive Site.Step (config : Config) (argon2 : String → String → Bool) (faults : Prop) :
    Site β → Happening β → Site β → Prop where
  | sends {service service' : Service} {sent : List (β × Bool)} {cookie : β → Option String} {browser : β}
      {visit : Visit} (step : Service.Step config argon2 faults service
        (.start (AuthController.endpoint (cookie browser) visit)) service') :
      Step config argon2 faults ⟨service, sent, cookie⟩ (.sends browser visit)
        ⟨service', sent ++ [(browser, false)], cookie⟩
  | goesOn {service service' : Service} {sent : List (β × Bool)} {cookie : β → Option String}
      {occurrence : Occurrence} (later : ∀ endpoint, occurrence ≠ .start endpoint)
      (step : Service.Step config argon2 faults service occurrence service') :
      Step config argon2 faults ⟨service, sent, cookie⟩ (.goesOn occurrence) ⟨service', sent, cookie⟩
  | arrives {service : Service} {sent : List (β × Bool)} {cookie : β → Option String} {browser : β}
      {index : Nat} {endpoint : Endpoint} {result : Except Failure Response}
      (sender : sent[index]? = some (browser, false))
      (ends : service.running[index]? = some (endpoint, ended result)) :
      Step config argon2 faults ⟨service, sent, cookie⟩ (.arrives index)
        ⟨service, sent.set index (browser, true),
          Function.update cookie browser (AuthController.cookie (cookie browser) endpoint result)⟩
  -- the cookie has expired, or its owner has deleted it
  | drops {service : Service} {sent : List (β × Bool)} {cookie : β → Option String} (browser : β) :
      Step config argon2 faults ⟨service, sent, cookie⟩ (.drops browser)
        ⟨service, sent, Function.update cookie browser none⟩

/-- Before the first visit. -/
structure Site.Started (site : Site β) : Prop where
  service : site.service.Started
  sent : site.sent = []
  cookie : ∀ browser, site.cookie browser = none

/-- Whatever the browser has sent with its present cookie was answered, and by no error of a library. -/
def Site.Settled (config : Config) (site : Site β) (browser : β) : Prop :=
  ∀ (refreshToken : String) (index : Nat) (arrived : Bool) (endpoint : Endpoint)
    (rest : Process Failure Op Op.Answer Response), site.cookie browser = some refreshToken →
    site.sent[index]? = some (browser, arrived) → site.service.running[index]? = some (endpoint, rest) →
    endpoint.brings config = some (hashRefreshToken config refreshToken) →
    arrived = true ∧ ∀ message, rest ≠ .fail (.internal message)

/-- No browser sends its cookie before what it has sent with it is settled. -/
def Patient (config : Config) (history : List (Site β × Happening β)) : Prop :=
  ∀ point ∈ history, ∀ browser visit, point.2 = .sends browser visit → visit = .refresh ∨ visit = .logout →
    point.1.Settled config browser

/-- What an event is to the service. -/
def Happening.occurrence (site : Site β) : Happening β → Occurrence
  | .sends browser visit => .start (AuthController.endpoint (site.cookie browser) visit)
  | .goesOn occurrence => occurrence
  | .arrives _ | .drops _ => .outside

/-- A run, as the service sees it. -/
def seenByService (history : List (Site β × Happening β)) : List (Service × Occurrence) :=
  history.map fun point => (point.1.service, point.2.occurrence point.1)

variable {config : Config} {argon2 : String → String → Bool} {faults : Prop} {start site site' : Site β}
  {happening : Happening β} {history : List (Site β × Happening β)} {browser other : β} {token : String}
  {index n : Nat} {endpoint : Endpoint} {rest : Process Failure Op Op.Answer Response} {userId key : Uuid}
  {row : RefreshToken}

theorem Site.Step.service_step (step : Site.Step config argon2 faults site happening site') :
    Service.Step config argon2 faults site.service (happening.occurrence site) site'.service := by
  cases step with
  | sends step => exact step
  | goesOn _ step => exact step
  | arrives | drops => exact .outside (.passes (Nat.le_refl _))

theorem run_service (run : Runs.Run (Site.Step config argon2 faults) start history site) :
    Runs.Run (Service.Step config argon2 faults) start.service (seenByService history) site.service :=
  run.seen Site.Step.service_step

/-! ### What is given out -/

/-- A new token is given out by a request that has stored it. -/
def Gives (config : Config) (told : List Exchange) (result : Except Failure Response) : Prop :=
  ∀ response refreshToken, result = .ok response → response.refreshToken = some refreshToken →
    ∃ (op : Op) (value : op.Answer) (data : NewToken), (⟨op, .ok value⟩ : Exchange) ∈ told ∧
      op.issues = some data ∧ data.token = hashRefreshToken config refreshToken

theorem login_gives {user : SafeUser} {told : List Exchange} :
    (login config user).Follows (fun _ _ => True) (fun told result => ∀ session, result = .ok session →
      ∃ (op : Op) (value : op.Answer) (data : NewToken), (⟨op, .ok value⟩ : Exchange) ∈ told ∧
        op.issues = some data ∧ data.token = hashRefreshToken config session.refreshToken) told := by
  unfold login
  refine follows_perform trivial (fun _ => nofun) fun access => ?_
  refine follows_perform trivial (fun _ => nofun) fun bytes => ?_
  refine follows_perform trivial (fun _ => nofun) fun now => ?_
  refine follows_perform trivial (fun _ => nofun) fun row => ?_
  rintro session ⟨⟩
  exact ⟨_, row, _, List.mem_append_right _ List.mem_cons_self, rfl, rfl⟩

theorem gives_error {told : List Exchange} {failure : Failure} : Gives config told (.error failure) :=
  fun _ _ => nofun

theorem handle_gives (config : Config) (endpoint : Endpoint) :
    (handle config endpoint).Follows (fun _ _ => True) (Gives config) [] := by
  cases endpoint with
  | register dto =>
    apply follows_map
    unfold register
    refine follows_perform trivial (fun _ => gives_error) fun existing => ?_
    refine follows_throwIf (fun _ => gives_error) fun _ => ?_
    refine follows_perform trivial (fun _ => gives_error) fun hash => ?_
    refine follows_perform trivial (fun _ => gives_error) fun user => ?_
    refine follows_bind login_gives (fun _ _ _ => gives_error) fun told session given => ?_
    rintro response refreshToken ⟨⟩ ⟨⟩
    exact given session rfl
  | login email password =>
    apply follows_map
    refine follows_bind (B := fun _ _ => True) (follows_ends fun _ _ => trivial) (fun _ _ _ => gives_error) ?_
    intro told user _
    refine login_gives.mono fun told result given => ?_
    intro response refreshToken same hands
    cases result with
    | error => contradiction
    | ok session =>
      cases same
      cases hands
      exact given session rfl
  | refresh refreshToken =>
    refine ((handle_follows config (.refresh refreshToken)).allow fun _ _ _ => trivial).mono ?_
    rintro told result ⟨session, life, rfl⟩ response token same hands
    cases life with
    | @rotated row user now later bytes access =>
      cases same
      cases hands
      refine ⟨.rotate row.id (successor config row user bytes later), (), _, ?_, rfl, rfl⟩
      exact List.mem_append_right _ List.mem_cons_self
    | _ => contradiction
  | revokeRefreshToken | logoutAll | authenticate =>
    apply follows_map
    refine follows_ends fun _ result => ?_
    rintro response refreshToken same hands
    cases result with
    | error => contradiction
    | ok =>
      cases same
      contradiction

section Run
variable {service : Service} {history : List (Service × Occurrence)} {start : Service}
  (run : Runs.Run (Service.Step config argon2 faults) start history service)
include run

/-- Nothing is issued again under the hash of something issued before. -/
theorem issued_before {i j m : Nat} {op op' : Op} {value : op.Answer} {value' : op'.Answer} {data data' : NewToken}
    {pool pool' : Service} (here : history[n]? = some (pool, .served i op (.ok value)))
    (issues : op.issues = some data)
    (there : history[m]? = some (pool', .served j op' (.ok value'))) (issues' : op'.issues = some data')
    (same : data.token = data'.token) : ¬ n < m := by
  intro before
  obtain ⟨u, step, rest⟩ := run.between here there before
  obtain ⟨_, id, row, stored, of⟩ := step_issued step issues
  obtain ⟨row', stored', later⟩ := (run_grows rest).tokens id row stored
  obtain ⟨_, _, issuing, _⟩ := run.pass there
  refine absurd ?_ ((step_issued issuing issues').1 row' (Table.mem_of_find stored'))
  rw [later.kept.2.1, of.1, same]

/-- Behind a token that was given out there is the row of its request's own. -/
theorem given_issued (idle : start.running = []) {response : Response} {refreshToken : String}
    (ends : service.running[index]? = some (endpoint, .done response))
    (hands : response.refreshToken = some refreshToken) :
    ∃ (n : Nat) (pool : Service) (op : Op) (value : op.Answer) (data : NewToken),
      history[n]? = some (pool, .served index op (.ok value)) ∧ op.issues = some data ∧
        data.token = hashRefreshToken config refreshToken := by
  obtain ⟨op, value, data, member, issues, hash⟩ :=
    run_follows run idle (handle_gives config) ends response refreshToken rfl hands
  obtain ⟨n, pool, here⟩ := told_at.mp member
  exact ⟨n, pool, op, value, data, here, issues, hash⟩

/-- Tokens with one hash were given out by one request. -/
theorem given_once (idle : start.running = []) {i j : Nat} {endpoint endpoint' : Endpoint}
    {response response' : Response} {refreshToken refreshToken' : String}
    (ends : service.running[i]? = some (endpoint, .done response)) (hands : response.refreshToken = some refreshToken)
    (ends' : service.running[j]? = some (endpoint', .done response'))
    (hands' : response'.refreshToken = some refreshToken')
    (same : hashRefreshToken config refreshToken = hashRefreshToken config refreshToken') : i = j := by
  obtain ⟨n, _, _, _, _, here, issues, hash⟩ := given_issued run idle ends hands
  obtain ⟨m, _, _, _, _, there, issues', hash'⟩ := given_issued run idle ends' hands'
  have token := hash.trans (same.trans hash'.symm)
  rcases Nat.lt_trichotomy n m with before | rfl | after
  · exact absurd before (issued_before run here issues there issues' token)
  · cases here.symm.trans there
    rfl
  · exact absurd after (issued_before run there issues' here issues token.symm)

/-- The row of a token that was given out is there. -/
theorem given_stored (idle : start.running = []) {response : Response} {refreshToken : String}
    (ends : service.running[index]? = some (endpoint, .done response))
    (hands : response.refreshToken = some refreshToken) :
    ∃ row ∈ service.world.db.refreshTokens.rows, row.token = hashRefreshToken config refreshToken := by
  obtain ⟨_, _, _, _, _, here, issues, hash⟩ := given_issued run idle ends hands
  obtain ⟨_, _, step, rest⟩ := run.pass here
  obtain ⟨_, id, row, stored, of⟩ := step_issued step issues
  obtain ⟨row', stored', later⟩ := (run_grows rest).tokens id row stored
  exact ⟨row', Table.mem_of_find stored', later.kept.2.1.trans (of.1.trans hash)⟩

end Run

/-! ### Times -/

theorem step_clock {service service' : Service} {occurrence : Occurrence}
    (step : Service.Step config argon2 faults service occurrence service') :
    service.world.clock ≤ service'.world.clock := by
  cases step with
  | start => exact Nat.le_refl _
  | served _ answered => cases answered <;> exact Nat.le_refl _
  | outside around =>
    cases around with
    | passes later => exact later

/-- What was the time once is not in the future. -/
theorem told_now {service start : Service} {history : List (Service × Occurrence)} {now : Nat}
    (run : Runs.Run (Service.Step config argon2 faults) start history service)
    (member : (⟨.now, .ok now⟩ : Exchange) ∈ Process.told index history) : now ≤ service.world.clock := by
  obtain ⟨_, _, here⟩ := told_at.mp member
  obtain ⟨_, after, step, rest⟩ := run.pass here
  have then' : now ≤ after.world.clock := by
    cases step with
    | served _ answered =>
      cases answered with
      | now => exact Nat.le_refl _
      | executed executed => cases executed
  refine rest.invariant (I := fun service => now ≤ service.world.clock) ?_ then'
  exact fun before step => before.trans (step_clock step)

/-! ### Who has which cookie -/

/-- An answer of this request has brought the browser a token with the hash. -/
def Site.Brought (config : Config) (site : Site β) (index : Nat) (browser : β) (token : String) : Prop :=
  ∃ endpoint response refreshToken, site.sent[index]? = some (browser, true) ∧
    site.service.running[index]? = some (endpoint, .done response) ∧
    response.refreshToken = some refreshToken ∧ hashRefreshToken config refreshToken = token

/-- Each request with a token is of a browser that was given the token; and what came with the present
cookie of a browser is its own, and failed where it was answered. -/
structure Site.Kept (config : Config) (site : Site β) : Prop where
  length : site.sent.length = site.service.running.length
  sourced : ∀ {index : Nat} {browser : β} {arrived : Bool} {endpoint : Endpoint}
    {rest : Process Failure Op Op.Answer Response} {token : String}, site.sent[index]? = some (browser, arrived) →
    site.service.running[index]? = some (endpoint, rest) → endpoint.brings config = some token →
    ∃ source, site.Brought config source browser token
  given : ∀ {browser : β} {refreshToken : String}, site.cookie browser = some refreshToken →
    ∃ source, site.Brought config source browser (hashRefreshToken config refreshToken)
  own : ∀ {browser : β} {refreshToken : String} {index : Nat} {endpoint : Endpoint}
    {rest : Process Failure Op Op.Answer Response}, site.cookie browser = some refreshToken →
    site.service.running[index]? = some (endpoint, rest) →
    endpoint.brings config = some (hashRefreshToken config refreshToken) →
    ∃ arrived, site.sent[index]? = some (browser, arrived) ∧ (arrived = true → ∃ error, rest = .fail error)

theorem brings_endpoint {cookie : Option String} {visit : Visit}
    (brings : (AuthController.endpoint cookie visit).brings config = some token) :
    (visit = .refresh ∨ visit = .logout) ∧
      ∃ refreshToken, cookie = some refreshToken ∧ hashRefreshToken config refreshToken = token := by
  cases visit with
  | refresh | logout =>
    refine ⟨by simp, ?_⟩
    rw [AuthController.endpoint, Endpoint.brings] at brings
    split at brings
    · contradiction
    · rename_i given
      cases cookie with
      | none => exact absurd rfl given
      | some refreshToken => exact ⟨refreshToken, rfl, Option.some.inj brings⟩
  | _ => contradiction

omit [DecidableEq β] in
/-- What was brought stays so when another answer arrives. -/
theorem Site.Brought.marked {service : Service} {sent : List (β × Bool)} {cookie cookie' : β → Option String}
    {i : Nat} (brought : Site.Brought config ⟨service, sent, cookie⟩ i other token)
    (sender : sent[index]? = some (browser, false)) :
    Site.Brought config ⟨service, sent.set index (browser, true), cookie'⟩ i other token := by
  obtain ⟨endpoint, response, refreshToken, sender', ends, hands, hash⟩ := brought
  have apart : index ≠ i := by
    rintro rfl
    cases sender.symm.trans sender'
  refine ⟨endpoint, response, refreshToken, ?_, ends, hands, hash⟩
  dsimp only
  rw [List.getElem?_set_ne apart]
  exact sender'

theorem Site.Brought.later (brought : site.Brought config index browser token)
    (step : Site.Step config argon2 faults site happening site') : site'.Brought config index browser token := by
  cases step with
  | arrives sender => exact brought.marked sender
  | @sends _ _ sent _ _ _ step =>
    obtain ⟨endpoint, response, refreshToken, sender, ends, hands, hash⟩ := brought
    exact ⟨endpoint, response, refreshToken, Runs.still_at sender, step.done_kept ends, hands, hash⟩
  | goesOn _ step =>
    obtain ⟨endpoint, response, refreshToken, sender, ends, hands, hash⟩ := brought
    exact ⟨endpoint, response, refreshToken, sender, step.done_kept ends, hands, hash⟩
  | drops => exact brought

section Run
variable (run : Runs.Run (Site.Step config argon2 faults) start history site) (started : start.Started)
include run started

theorem brought_once {i j : Nat} (first : site.Brought config i browser token)
    (second : site.Brought config j other token) : i = j ∧ browser = other := by
  obtain ⟨_, _, _, sender, ends, hands, hash⟩ := first
  obtain ⟨_, _, _, sender', ends', hands', hash'⟩ := second
  have same := given_once (run_service run) started.service.running ends hands ends' hands' (hash.trans hash'.symm)
  subst same
  cases sender.symm.trans sender'
  exact ⟨rfl, rfl⟩

end Run

omit [DecidableEq β] in
theorem Site.Started.kept (started : start.Started) : start.Kept config where
  length := by rw [started.sent, started.service.running, List.length_nil, List.length_nil]
  sourced := by
    intro _ _ _ _ _ _ sender
    rw [started.sent] at sender
    contradiction
  given := by
    intro _ _ held
    rw [started.cookie] at held
    contradiction
  own := by
    intro _ _ _ _ _ held
    rw [started.cookie] at held
    contradiction

/-- A new request comes with nothing, or with the cookie of the browser that makes it. -/
theorem Site.Kept.sends {service service' : Service} {sent : List (β × Bool)} {cookie : β → Option String}
    {visit : Visit} (kept : Site.Kept config ⟨service, sent, cookie⟩)
    (once : ∀ {i j : Nat} {b b' : β} {token : String}, Site.Brought config ⟨service, sent, cookie⟩ i b token →
      Site.Brought config ⟨service, sent, cookie⟩ j b' token → i = j ∧ b = b')
    (step : Service.Step config argon2 faults service (.start (AuthController.endpoint (cookie browser) visit))
      service') :
    Site.Kept config ⟨service', sent ++ [(browser, false)], cookie⟩ := by
  have later : ∀ {index : Nat} {b : β} {token : String}, Site.Brought config ⟨service, sent, cookie⟩ index b token →
      Site.Brought config ⟨service', sent ++ [(browser, false)], cookie⟩ index b token :=
    fun brought => brought.later (.sends step)
  cases step with
  | @start world running =>
    have length : sent.length = running.length := kept.length
    -- an earlier request, or this one
    have split : ∀ {index : Nat} {endpoint : Endpoint} {rest : Process Failure Op Op.Answer Response},
        (running ++ [(AuthController.endpoint (cookie browser) visit,
          handle config (AuthController.endpoint (cookie browser) visit))])[index]? = some (endpoint, rest) →
        index < running.length ∧ running[index]? = some (endpoint, rest) ∨
          index = running.length ∧ endpoint = AuthController.endpoint (cookie browser) visit :=
      fun found => (Runs.concat_at found).imp_right fun last => ⟨last.1, congrArg Prod.fst last.2⟩
    have last : (sent ++ [(browser, false)])[running.length]? = some (browser, false) := by
      rw [← length]
      exact List.getElem?_concat_length
    constructor
    · dsimp only
      rw [List.length_append, List.length_append, length]
      rfl
    · intro index b arrived endpoint rest token sender found brings
      rcases split found with ⟨known, found⟩ | ⟨rfl, rfl⟩
      · dsimp only at sender
        rw [List.getElem?_append_left (length ▸ known)] at sender
        exact (kept.sourced sender found brings).imp fun _ => later
      · cases last.symm.trans sender
        obtain ⟨_, refreshToken, held, rfl⟩ := brings_endpoint brings
        exact (kept.given held).imp fun _ => later
    · exact fun held => (kept.given held).imp fun _ => later
    · intro b refreshToken index endpoint rest held found brings
      rcases split found with ⟨known, found⟩ | ⟨rfl, rfl⟩
      · obtain ⟨arrived, sender, failed⟩ := kept.own held found brings
        exact ⟨arrived, Runs.still_at sender, failed⟩
      · obtain ⟨_, refreshToken', held', same⟩ := brings_endpoint brings
        obtain ⟨source, brought⟩ := kept.given held
        obtain ⟨source', brought'⟩ := kept.given held'
        obtain ⟨_, rfl⟩ := once brought (same ▸ brought')
        exact ⟨false, last, nofun⟩

theorem Site.Kept.goesOn {service service' : Service} {sent : List (β × Bool)} {cookie : β → Option String}
    {occurrence : Occurrence} (kept : Site.Kept config ⟨service, sent, cookie⟩)
    (later : ∀ endpoint, occurrence ≠ .start endpoint)
    (step : Service.Step config argon2 faults service occurrence service') :
    Site.Kept config ⟨service', sent, cookie⟩ := by
  have brought : ∀ {index : Nat} {b : β} {token : String}, Site.Brought config ⟨service, sent, cookie⟩ index b token →
      Site.Brought config ⟨service', sent, cookie⟩ index b token :=
    fun brought => brought.later (.goesOn later step)
  have same : service'.running.length = service.running.length := by
    cases step with
    | start endpoint => exact absurd rfl (later endpoint)
    | served => exact List.length_set
    | outside => rfl
  -- each request in flight was so before
  have earlier : ∀ {index : Nat} {endpoint : Endpoint} {rest : Process Failure Op Op.Answer Response},
      service'.running[index]? = some (endpoint, rest) →
      ∃ before, service.running[index]? = some (endpoint, before) := by
    intro index endpoint rest found
    have known : index < service.running.length := same ▸ (List.getElem?_eq_some_iff.mp found).1
    exact step.request_before known found
  constructor
  · exact kept.length.trans same.symm
  · intro index b arrived endpoint rest token sender found brings
    obtain ⟨_, before⟩ := earlier found
    exact (kept.sourced sender before brings).imp fun _ => brought
  · exact fun held => (kept.given held).imp fun _ => brought
  · intro b refreshToken index endpoint rest held found brings
    obtain ⟨_, before⟩ := earlier found
    obtain ⟨arrived, sender, failed⟩ := kept.own held before brings
    refine ⟨arrived, sender, fun here => ?_⟩
    obtain ⟨error, rfl⟩ := failed here
    have unmoved := step.over_kept before (by rintro _ _ ⟨⟩)
    cases found.symm.trans unmoved
    exact ⟨error, rfl⟩

theorem cookie_some (config : Config) {before : Option String} {result : Except Failure Response}
    {refreshToken : String} (held : AuthController.cookie before endpoint result = some refreshToken) :
    (before = some refreshToken ∧ ∀ token, endpoint.brings config = some token → ∃ error, result = .error error) ∨
      ∃ response, result = .ok response ∧ response.refreshToken = some refreshToken := by
  cases result with
  | error error => cases endpoint <;> exact .inl ⟨held, fun _ _ => ⟨error, rfl⟩⟩
  | ok response =>
    cases endpoint with
    | authenticate => exact .inl ⟨held, nofun⟩
    | _ => exact .inr ⟨response, rfl, held⟩

/-- An answer leaves the cookie, takes it away or brings one that nobody has sent yet. -/
theorem Site.Kept.arrives {service : Service} {sent : List (β × Bool)} {cookie cookie' : β → Option String}
    {result : Except Failure Response} (kept : Site.Kept config ⟨service, sent, cookie⟩)
    (sender : sent[index]? = some (browser, false)) (ends : service.running[index]? = some (endpoint, ended result))
    (updated : cookie' = Function.update cookie browser (AuthController.cookie (cookie browser) endpoint result))
    (once : ∀ {i j : Nat} {b b' : β} {token : String},
      Site.Brought config ⟨service, sent.set index (browser, true), cookie'⟩ i b token →
      Site.Brought config ⟨service, sent.set index (browser, true), cookie'⟩ j b' token → i = j ∧ b = b') :
    Site.Kept config ⟨service, sent.set index (browser, true), cookie'⟩ := by
  have own : cookie' browser = AuthController.cookie (cookie browser) endpoint result := by
    rw [updated, Function.update_self]
  have others : ∀ {b : β}, b ≠ browser → cookie' b = cookie b := by
    intro b other
    rw [updated, Function.update_of_ne other]
  have here : (sent.set index (browser, true))[index]? = some (browser, true) :=
    List.getElem?_set_self (List.getElem?_eq_some_iff.mp sender).1
  constructor
  · exact List.length_set.trans kept.length
  · intro i b arrived endpoint' rest token sender' found brings
    by_cases same : index = i
    · subst same
      cases here.symm.trans sender'
      exact (kept.sourced sender found brings).imp fun _ brought => brought.marked sender
    · dsimp only at sender'
      rw [List.getElem?_set_ne same] at sender'
      exact (kept.sourced sender' found brings).imp fun _ brought => brought.marked sender
  · intro b refreshToken held
    by_cases same : b = browser
    · subst same
      rcases cookie_some config (own.symm.trans held) with ⟨before, _⟩ | ⟨response, rfl, hands⟩
      · exact (kept.given before).imp fun _ brought => brought.marked sender
      · exact ⟨index, endpoint, response, refreshToken, here, ends, hands, rfl⟩
    · have held := (others same).symm.trans held
      exact (kept.given held).imp fun _ brought => brought.marked sender
  · intro b refreshToken i endpoint' rest held found brings
    have other : ∀ {arrived : Bool}, sent[i]? = some (b, arrived) → index ≠ i →
        (sent.set index (browser, true))[i]? = some (b, arrived) := by
      intro arrived sender' apart
      rw [List.getElem?_set_ne apart]
      exact sender'
    by_cases same : b = browser
    · subst same
      rcases cookie_some config (own.symm.trans held) with ⟨before, fails⟩ | ⟨response, rfl, hands⟩
      · obtain ⟨arrived, sender', failed⟩ := kept.own before found brings
        by_cases this : index = i
        · subst this
          cases ends.symm.trans found
          obtain ⟨error, rfl⟩ := fails _ brings
          exact ⟨true, here, fun _ => ⟨error, rfl⟩⟩
        · exact ⟨arrived, other sender' this, failed⟩
      · -- whoever sent the new token before would have been given it before
        have inside : i < sent.length := kept.length ▸ (List.getElem?_eq_some_iff.mp found).1
        obtain ⟨source, brought⟩ := kept.sourced (List.getElem?_eq_getElem inside) found brings
        have new : Site.Brought config ⟨service, sent.set index (b, true), cookie'⟩ index b
            (hashRefreshToken config refreshToken) := ⟨endpoint, response, refreshToken, here, ends, hands, rfl⟩
        obtain ⟨rfl, _⟩ := once (brought.marked sender) new
        obtain ⟨_, _, _, sender', _⟩ := brought
        cases sender.symm.trans sender'
    · have held := (others same).symm.trans held
      obtain ⟨arrived, sender', failed⟩ := kept.own held found brings
      refine ⟨arrived, other sender' ?_, failed⟩
      rintro rfl
      cases sender.symm.trans sender'
      exact same rfl

/-- A cookie that is gone is nobody's. -/
theorem Site.Kept.drops {service : Service} {sent : List (β × Bool)} {cookie : β → Option String}
    (kept : Site.Kept config ⟨service, sent, cookie⟩) (browser : β) :
    Site.Kept config ⟨service, sent, Function.update cookie browser none⟩ := by
  have before : ∀ {b : β} {refreshToken : String}, Function.update cookie browser none b = some refreshToken →
      cookie b = some refreshToken := by
    intro b refreshToken held
    by_cases same : b = browser
    · rw [same, Function.update_self] at held
      contradiction
    · rw [Function.update_of_ne same] at held
      exact held
  exact ⟨kept.length, kept.sourced, fun held => kept.given (before held), fun held => kept.own (before held)⟩

section Run
variable (run : Runs.Run (Site.Step config argon2 faults) start history site) (started : start.Started)
include run started

theorem run_kept : site.Kept config := by
  induction run with
  | refl => exact started.kept
  | tail run step ih =>
    have whole := run.tail step
    cases step with
    | sends step => exact ih.sends (fun first second => brought_once run started first second) step
    | goesOn later step => exact ih.goesOn later step
    | arrives sender ends =>
      exact ih.arrives sender ends rfl fun first second => brought_once whole started first second
    | drops browser => exact ih.drops browser

/-- No two browsers have one token. -/
theorem cookie_own {refreshToken refreshToken' : String} (held : site.cookie browser = some refreshToken)
    (held' : site.cookie other = some refreshToken')
    (same : hashRefreshToken config refreshToken = hashRefreshToken config refreshToken') : browser = other := by
  have kept : site.Kept config := run_kept run started
  obtain ⟨_, brought⟩ := kept.given held
  obtain ⟨_, brought'⟩ := kept.given held'
  exact (brought_once run started brought (same ▸ brought')).2

/-- Where browsers are patient, a token comes again only after it was refused. -/
theorem patient_orderly (patient : Patient config history)
    (stays : ∀ entry ∈ site.service.running, entry.1 ≠ .logoutAll userId) :
    Orderly config userId (seenByService history) site.service where
  turns := by
    intro n pool endpoint row here _ _ brings entry among brings'
    obtain ⟨⟨before, happening⟩, there, same⟩ := Option.map_eq_some_iff.mp (List.getElem?_map ▸ here)
    obtain ⟨rfl, starts⟩ := Prod.mk.inj same
    obtain ⟨earlier, _, step, _⟩ := run.pass there
    have kept : before.Kept config := run_kept earlier started
    cases happening with
    | goesOn occurrence =>
      cases step with
      | goesOn later => exact absurd starts (later endpoint)
    | arrives | drops => contradiction
    | sends browser visit =>
      cases starts
      obtain ⟨sends, refreshToken, held, hash⟩ := brings_endpoint brings
      obtain ⟨i, found⟩ := List.mem_iff_getElem?.mp among
      have found : before.service.running[i]? = some (entry.1, entry.2) := found
      have brings' : entry.1.brings config = some (hashRefreshToken config refreshToken) :=
        brings'.trans (congrArg some hash.symm)
      obtain ⟨arrived, sender, failed⟩ := kept.own held found brings'
      have settled := patient _ (List.mem_of_getElem? there) browser visit rfl sends
      obtain ⟨answered, clean⟩ := settled refreshToken i arrived entry.1 entry.2 held sender found brings'
      obtain ⟨error, fails⟩ := failed answered
      cases error with
      | http status message => exact ⟨status, message, fails⟩
      | internal message => exact absurd fails (clean message)
  stays := stays

/-- A token that comes with a request is that of a stored row. -/
theorem brings_stored (found : site.service.running[index]? = some (endpoint, rest))
    (brings : endpoint.brings config = some token) :
    ∃ row ∈ site.service.world.db.refreshTokens.rows, row.token = token := by
  have kept : site.Kept config := run_kept run started
  have inside : index < site.sent.length := kept.length ▸ (List.getElem?_eq_some_iff.mp found).1
  obtain ⟨_, _, _, _, _, ends, hands, rfl⟩ := kept.sourced (List.getElem?_eq_getElem inside) found brings
  exact given_stored (run_service run) started.service.running ends hands

/-- The row of a token is found where the request with it looks for it. -/
theorem refresh_finds (quiet : Quiet userId (seenByService history)) {refreshToken : String}
    (found : site.service.running[index]? = some (.refresh refreshToken, rest)) (given : refreshToken ≠ "")
    (stored : site.service.world.db.refreshTokens.find key = some row) (own : row.userId = userId)
    (hash : row.token = hashRefreshToken config refreshToken) :
    (⟨.findRefreshToken (hashRefreshToken config refreshToken), .ok none⟩ : Exchange) ∉
      Process.told index (seenByService history) := by
  intro member
  obtain ⟨n, pool, here⟩ := told_at.mp member
  obtain ⟨⟨before, happening⟩, there, same⟩ := Option.map_eq_some_iff.mp (List.getElem?_map ▸ here)
  obtain ⟨rfl, _⟩ := Prod.mk.inj same
  obtain ⟨earlier, _⟩ := run.pass there
  obtain ⟨upTo, _, step, after⟩ := (run_service run).pass here
  -- the request was there already, and the row of its token
  obtain ⟨endpoint, _, there', _⟩ := run_script (run_service run) started.service.running (handle_follows config) here
  obtain ⟨_, last⟩ := run_request_kept (.head step after) there'
  cases found.symm.trans last
  have brings : (Endpoint.refresh refreshToken).brings config = some (hashRefreshToken config refreshToken) :=
    if_neg given
  obtain ⟨row', member', hash'⟩ := brings_stored earlier started there' brings
  obtain ⟨row'', stored', later⟩ :=
    ((step_grows step).trans (run_grows after)).tokens row'.id row' (Table.find_of_mem member')
  obtain ⟨_, token, owner, _⟩ := later.kept
  have linked := (run_sessions (run_service run) started.service).1
  obtain rfl := linked.hashes _ _ row'' row stored' stored (token.trans (hash'.trans hash.symm))
  cases stored'.symm.trans stored
  obtain ⟨user, known, _⟩ := run_current upTo started.service (quiet.take n) (Table.find_of_mem member')
    (owner.symm.trans own)
  have linked' := (run_sessions upTo started.service).1
  have finds := linked'.found (Table.find_of_mem member') hash' ((owner.symm.trans own) ▸ known)
  rw [← (step_found step).1] at finds
  contradiction

end Run

/-- Sessions last. However visits, answers and the work of the service interleave, where no browser
sends its cookie again before what it has sent with it is settled, a user who does not log out
everywhere is not logged out: the user stays as the user was; the cookie of a browser that is not
waiting is its alone and that of a stored row, which, if it is of the user, is unrevoked and up to
date; and a refresh with a token of the user fails only when it has expired, or in a library. -/
theorem browsers_spared (run : Runs.Run (Site.Step config argon2 faults) start history site)
    (started : start.Started) (patient : Patient config history)
    (stays : ∀ entry ∈ site.service.running, entry.1 ≠ .logoutAll userId) :
    (∀ user, start.service.world.db.users.find userId = some user →
      site.service.world.db.users.find userId = some user) ∧
    (∀ browser refreshToken, site.cookie browser = some refreshToken → site.Settled config browser →
      (∀ other, site.cookie other = some refreshToken → other = browser) ∧
        ∃ row ∈ site.service.world.db.refreshTokens.rows, row.token = hashRefreshToken config refreshToken ∧
          (row.userId = userId → row.revoked = false ∧ ∃ user,
            site.service.world.db.users.find userId = some user ∧ row.tokenVersion = user.tokenVersion)) ∧
    ∀ (index : Nat) (refreshToken : String) (error : Failure),
      site.service.running[index]? = some (.refresh refreshToken, .fail error) → refreshToken ≠ "" →
      ∀ row ∈ site.service.world.db.refreshTokens.rows, row.userId = userId →
      row.token = hashRefreshToken config refreshToken →
      row.expiresAt ≤ site.service.world.clock ∨ ∃ message, error = .internal message := by
  have seen := run_service run
  have orderly := patient_orderly run started patient stays
  have quiet := quiet_of_orderly seen started.service orderly
  have kept : site.Kept config := run_kept run started
  refine ⟨fun user known => run_stays seen quiet known, fun browser refreshToken held settled => ⟨?_, ?_⟩, ?_⟩
  · exact fun other held' => cookie_own run started held' held rfl
  · obtain ⟨source, _, response, _, _, ends, hands, hash⟩ := kept.given held
    obtain ⟨row, member, token⟩ := given_stored seen started.service.running ends hands
    have token := token.trans hash
    have current := run_current seen started.service quiet (Table.find_of_mem member)
    refine ⟨row, member, token, fun own => ⟨?_, current own⟩⟩
    by_contra revoked
    -- whoever has used the token up was refused, and so has not
    have spent := revoked_spent seen started.service.refreshTokens quiet (Table.find_of_mem member) own
      (by simpa using revoked)
    obtain ⟨n, i, pool, op, answer, endpoint, _, here, spends, there, brings⟩ :=
      spent_brings seen started.service.running (Table.find_of_mem member) spent
    obtain ⟨_, _, step, after⟩ := seen.pass here
    obtain ⟨rest, found⟩ := run_request_kept (.head step after) there
    have brings' := brings.trans (congrArg some token)
    obtain ⟨arrived, sender, failed⟩ := kept.own held found brings'
    obtain ⟨answered, clean⟩ := settled refreshToken i arrived endpoint rest held sender found brings'
    obtain ⟨error, rfl⟩ := failed answered
    cases error with
    | internal message => exact clean message rfl
    | http status message =>
      refine refused_unspent seen started.service quiet found (Endpoint.brings_presents brings)
        (Table.find_of_mem member) own ⟨op, answer⟩ ?_ spends
      exact told_at.mpr ⟨n, pool, here⟩
  · intro index refreshToken error ends given row member own hash
    have found := Table.find_of_mem member
    rcases refresh_spared seen started.service orderly ends found own hash with
      missing | unknown | ⟨now, told, expired⟩ | internal
    · exact absurd missing given
    · exact absurd unknown (refresh_finds run started quiet ends given found own hash)
    · exact .inl (expired.trans (told_now seen told))
    · exact .inr internal

/-! ### One browser -/

/-- What the service does on its own, the browsers look on. -/
theorem goes_on {service service' : Service} {trace : List (Service × Occurrence)}
    (run : Runs.Run (Service.Step config argon2 faults) service trace service')
    (later : ∀ point ∈ trace, ∀ endpoint, point.2 ≠ .start endpoint) (sent : List (β × Bool))
    (cookie : β → Option String) :
    ∃ history, Runs.Run (Site.Step config argon2 faults) ⟨service, sent, cookie⟩ history ⟨service', sent, cookie⟩ ∧
      ∀ point ∈ history, ∀ browser visit, point.2 ≠ .sends browser visit := by
  induction run with
  | refl => exact ⟨[], .refl, fun _ member => absurd member List.not_mem_nil⟩
  | @tail trace t l u run step ih =>
    obtain ⟨history, run', unsent⟩ := ih fun point member => later point (List.mem_append_left _ member)
    refine ⟨_, run'.tail (.goesOn (later _ (List.mem_append_right _ List.mem_cons_self)) step), ?_⟩
    intro point member browser visit
    rcases List.mem_append.mp member with earlier | last
    · exact unsent point earlier browser visit
    · obtain rfl := List.mem_singleton.mp last
      exact nofun

end Browsers

namespace Sample

def begins : Occurrence → Bool
  | .start _ => true
  | _ => false

theorem not_begins {trace : List (Service × Occurrence)} (none' : trace.all (fun point => !begins point.2) = true) :
    ∀ point ∈ trace, ∀ endpoint, point.2 ≠ .start endpoint := by
  intro point member endpoint same
  have quiet := List.all_eq_true.mp none' point member
  rw [same] at quiet
  contradiction

end Sample

/-- A browser registers and refreshes, each time with the answer in hand before it goes on. -/
theorem browsers_spared_sample : ∃ site : Site Unit, site.cookie () = some "rr" ∧
    site.service.world.db.refreshTokens.rows.map RefreshToken.revoked = [true, false] ∧
      ∃ row ∈ site.service.world.db.refreshTokens.rows,
        row.token = hashRefreshToken Sample.config "rr" ∧ row.revoked = false := by
  have happens : ∃ played, Sample.plays ⟨Sample.start.world,
        [(.register Sample.dto, handle Sample.config (.register Sample.dto))]⟩ (List.replicate 7 (.serve 0)) =
      some played ∧ played.1.all (fun point => !Sample.begins point.2) = true ∧
      (∃ user access, played.2.running = [(.register Sample.dto, ended (.ok (.registered user ⟨access, "r"⟩)))]) ∧
      ∃ again, Sample.plays ⟨played.2.world,
          played.2.running ++ [(.refresh "r", handle Sample.config (.refresh "r"))]⟩ (List.replicate 6 (.serve 1)) =
        some again ∧ again.1.all (fun point => !Sample.begins point.2) = true ∧
        (∃ first access, again.2.running = [(.register Sample.dto, first),
          (.refresh "r", ended (.ok (.session ⟨access, "rr"⟩)))]) ∧
        again.2.world.db.refreshTokens.rows.map RefreshToken.revoked = [true, false] ∧
        ∀ row ∈ again.2.world.db.refreshTokens.rows, row.userId = Sample.userId :=
    ⟨_, rfl, rfl, ⟨_, _, rfl⟩, _, rfl, rfl, ⟨_, _, rfl⟩, rfl, by decide⟩
  obtain ⟨⟨trace, ⟨world, running⟩⟩, plays, quiet, ⟨user, access, ends⟩, ⟨trace', service⟩, plays', quiet',
    ⟨first, access', ends'⟩, revoked, owned⟩ := happens
  dsimp only at quiet ends plays' quiet' ends' revoked owned
  have started : (⟨Sample.start, [], fun _ => none⟩ : Site Unit).Started := ⟨Sample.started, rfl, fun _ => rfl⟩
  -- the cookies after the two answers
  let opened : Unit → Option String := Function.update (fun _ => none) ()
    (AuthController.cookie none (.register Sample.dto) (.ok (.registered user ⟨access, "r"⟩)))
  let renewed : Unit → Option String := Function.update opened ()
    (AuthController.cookie (opened ()) (.refresh "r") (.ok (.session ⟨access', "rr"⟩)))
  obtain ⟨history, run, unsent⟩ :=
    goes_on (Sample.plays_run plays) (Sample.not_begins quiet) [((), false)] fun _ => none
  obtain ⟨history', run', unsent'⟩ :=
    goes_on (Sample.plays_run plays') (Sample.not_begins quiet') [((), true), ((), false)] opened
  have registers : Site.Step Sample.config Sample.argon2 False ⟨Sample.start, [], fun _ => none⟩
      (.sends () (.register Sample.dto)) ⟨_, [((), false)], fun _ => none⟩ := .sends (.start _)
  have registered : Site.Step Sample.config Sample.argon2 False ⟨⟨world, running⟩, [((), false)], fun _ => none⟩
      (.arrives 0) ⟨⟨world, running⟩, [((), true)], opened⟩ :=
    .arrives rfl (congrArg (fun list => list[0]?) ends)
  have refreshes : Site.Step Sample.config Sample.argon2 False ⟨⟨world, running⟩, [((), true)], opened⟩
      (.sends () .refresh) ⟨⟨world, running ++ [(.refresh "r", handle Sample.config (.refresh "r"))]⟩,
        [((), true), ((), false)], opened⟩ := .sends (.start _)
  have refreshed : Site.Step Sample.config Sample.argon2 False ⟨service, [((), true), ((), false)], opened⟩
      (.arrives 1) ⟨service, [((), true), ((), true)], renewed⟩ :=
    .arrives rfl (congrArg (fun list => list[1]?) ends')
  have visits : ∃ trace, Runs.Run (Site.Step Sample.config Sample.argon2 False) ⟨Sample.start, [], fun _ => none⟩
      trace ⟨service, [((), true), ((), true)], renewed⟩ ∧ Patient Sample.config trace := by
    have first := ((Runs.Run.single registers).trans run).tail registered
    refine ⟨_, ((first.tail refreshes).trans run').tail refreshed, ?_⟩
    intro point member browser visit same sends
    simp only [List.mem_append, List.mem_singleton, or_assoc] at member
    rcases member with rfl | earlier | rfl | rfl | later | rfl
    · cases same
      rcases sends with other | other <;> contradiction
    · exact absurd same (unsent point earlier browser visit)
    · contradiction
    · intro refreshToken index arrived endpoint rest _ _ found brings
      match index with
      | 0 =>
        dsimp only at found
        rw [ends] at found
        cases found
        contradiction
      | index + 1 =>
        dsimp only at found
        rw [ends] at found
        contradiction
    · exact absurd same (unsent' point later browser visit)
    · contradiction
  have stays : ∀ entry ∈ service.running, entry.1 ≠ .logoutAll Sample.userId := by
    rw [ends']
    intro entry member
    rcases List.mem_pair.mp member with rfl | rfl <;> exact nofun
  have settled : Site.Settled Sample.config ⟨service, [((), true), ((), true)], renewed⟩ () := by
    intro refreshToken index arrived endpoint rest held sender found brings
    obtain rfl : "rr" = refreshToken := Option.some.inj held
    dsimp only at found
    rw [ends'] at found
    match index with
    | 0 =>
      cases found
      contradiction
    | 1 =>
      cases found
      exact absurd brings (by decide)
    | index + 2 => contradiction
  obtain ⟨_, whole, patient⟩ := visits
  obtain ⟨_, cookies, _⟩ := browsers_spared whole started patient stays
  obtain ⟨_, row, member, hash, alive⟩ := cookies () "rr" rfl settled
  exact ⟨_, rfl, revoked, row, member, hash, (alive (owned row member)).1⟩

end Stellance.Auth
