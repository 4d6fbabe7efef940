import Stellance.Library.Process
import Stellance.Auth.Data

/-! The requests of the auth service, await by await, with the two strategies in front of
it. Hashes, passwords and signatures are the business of libraries; what the service relies
on is in the configuration and in the answers to its operations. -/
namespace Stellance.Auth
open Backend (Uuid UserRole)

structure JwtPayload where
  email : String
  sub : Uuid
  role : UserRole
  tv : Nat
  typ : Option String
  deriving DecidableEq

/-- A signed payload with its time of expiry. -/
structure AccessToken where
  payload : JwtPayload
  expiresAt : Nat
  deriving DecidableEq

inductive Op where
  | findUserByEmail (email : String)
  | verifyPassword (hash password : String)
  | hashPassword (password : String)
  | createUser (data : NewUser)
  | findRefreshToken (token : String)
  | createRefreshToken (data : NewToken)
  | rotate (existingId : Uuid) (data : NewToken)
  | revokeRefreshToken (token : String)
  | incrementTokenVersion (userId : Uuid)
  | revokeAll (userId : Uuid)
  | now
  | randomBytes
  | sign (payload : JwtPayload) (expiresIn : Nat)
  | verifyJwt (token : AccessToken)

abbrev Op.Answer : Op → Type
  | .findUserByEmail _ => Option User
  | .verifyPassword .. => Bool
  | .hashPassword _ => String
  | .createUser _ => User
  | .findRefreshToken _ => Option (RefreshToken × User)
  | .createRefreshToken _ => RefreshToken
  | .rotate .. | .revokeRefreshToken _ | .incrementTokenVersion _ | .revokeAll _ | .verifyJwt _ => Unit
  | .now => Nat
  | .randomBytes => String
  | .sign .. => AccessToken

abbrev Request (α : Type) := Process Failure Op Op.Answer α

def await (op : Op) : Request op.Answer := Process.perform op

structure Config where
  /-- SHA-256, as hexadecimal text. -/
  sha256 : String → String
  refreshTokenPepper : String
  /-- What `getAccessTokenExpiresIn` stands for, in milliseconds. -/
  accessTokenExpiresIn : Nat
  refreshTokenDays : Nat

def Failure.unauthorized (message : String) : Failure := .http .unauthorized message
def Failure.forbidden (message : String) : Failure := .http .forbidden message
def Failure.conflict (message : String) : Failure := .http .conflict message

structure RegisterDto where
  email : String
  password : String
  name : String
  role : Option UserRole

/-- The tokens of a session. -/
structure Session where
  accessToken : AccessToken
  refreshToken : String
  deriving DecidableEq

namespace AuthService
open Process hiding await
variable (config : Config)

def validateUser (email password : String) : Request (Option SafeUser) := do
  let user ← await (.findUserByEmail email)
  match user with
  | none => pure none
  | some user => do
    let verified ← await (.verifyPassword user.password password)
    pure (if verified then some user.result else none)

def hashRefreshToken (token : String) : String :=
  config.sha256 (token ++ "." ++ config.refreshTokenPepper)

def payload (user : SafeUser) : JwtPayload :=
  { email := user.email, sub := user.id, role := user.role, tv := user.tokenVersion,
    typ := some "access" }

def expiry (now : Nat) : Nat := now + config.refreshTokenDays * 24 * 60 * 60 * 1000

def login (user : SafeUser) : Request Session := do
  let accessToken ← await (.sign (payload user) config.accessTokenExpiresIn)
  let refreshToken ← await .randomBytes
  let now ← await .now
  let _ ← await <| .createRefreshToken
    { token := hashRefreshToken config refreshToken, userId := user.id,
      tokenVersion := user.tokenVersion, expiresAt := expiry config now }
  pure ⟨accessToken, refreshToken⟩

def logoutAll (userId : Uuid) : Request Unit := do
  await (.incrementTokenVersion userId)
  await (.revokeAll userId)

def Failure.isForbidden : Failure → Bool
  | .http .forbidden _ => true
  | _ => false

/-- The rotation, with everything logged out where it finds the token used. -/
def rotateOrLogoutAll (existing : RefreshToken) (data : NewToken) : Request Unit :=
  tryCatch (fun err => do
    if Failure.isForbidden err then logoutAll existing.userId
    fail err)
    (await (.rotate existing.id data))

def refresh (refreshToken : String) : Request Session := do
  throwIf (refreshToken = "") (.unauthorized "Missing refresh token")
  let found ← await (.findRefreshToken (hashRefreshToken config refreshToken))
  let (existing, user) ← orThrow found (.unauthorized "Invalid refresh token")
  if existing.revoked then
    if existing.replacedByTokenId.isSome then
      logoutAll existing.userId
      fail (.forbidden "Refresh token reuse detected")
    else fail (.unauthorized "Refresh token revoked")
  else
    let now ← await .now
    throwIf (existing.expiresAt ≤ now) (.unauthorized "Refresh token expired")
    throwIf (user.tokenVersion ≠ existing.tokenVersion) (.unauthorized "Refresh token invalid")
    let newRefreshToken ← await .randomBytes
    let now ← await .now
    rotateOrLogoutAll existing
      { token := hashRefreshToken config newRefreshToken, userId := existing.userId,
        tokenVersion := user.tokenVersion, expiresAt := expiry config now }
    let accessToken ← await (.sign (payload user.result) config.accessTokenExpiresIn)
    pure ⟨accessToken, newRefreshToken⟩

def revokeRefreshToken (refreshToken : String) : Request Unit :=
  if refreshToken = "" then pure ()
  else await (.revokeRefreshToken (hashRefreshToken config refreshToken))

def register (dto : RegisterDto) : Request (SafeUser × Session) := do
  let existingUser ← await (.findUserByEmail dto.email)
  throwIf (existingUser.isSome = true) (.conflict "Email already exists")
  let passwordHash ← await (.hashPassword dto.password)
  let user ← await <| .createUser
    { email := dto.email, name := dto.name, passwordHash, role := dto.role.getD .client }
  let session ← login config user.result
  pure (user.result, session)

end AuthService

/-- The user a local login goes on with. -/
def LocalStrategy.validate (email password : String) : Request SafeUser := do
  let user ← AuthService.validateUser email password
  Process.orThrow user (.unauthorized "Invalid credentials")

/-- What later handlers know of the user of an access token. -/
structure Identity where
  id : Uuid
  email : String
  role : UserRole
  deriving DecidableEq

/-- A payload whose signature and expiry were checked. -/
def JwtStrategy.validate (payload : JwtPayload) : Request Identity := do
  Process.throwIf (payload.typ.any (fun typ => typ ≠ "" ∧ typ ≠ "access") = true)
    (.unauthorized "Invalid token type")
  pure ⟨payload.sub, payload.email, payload.role⟩

inductive Endpoint where
  | register (dto : RegisterDto)
  | login (email password : String)
  | refresh (refreshToken : String)
  | revokeRefreshToken (refreshToken : String)
  | logoutAll (userId : Uuid)
  | authenticate (token : AccessToken)

inductive Response where
  | registered (user : SafeUser) (session : Session)
  | session (session : Session)
  | done
  | authenticated (identity : Identity)
  deriving DecidableEq

def handle (config : Config) : Endpoint → Request Response
  | .register dto => (fun r => .registered r.1 r.2) <$> AuthService.register config dto
  | .login email password => .session <$> do
      let user ← LocalStrategy.validate email password
      AuthService.login config user
  | .refresh refreshToken => .session <$> AuthService.refresh config refreshToken
  | .revokeRefreshToken refreshToken =>
      (fun _ => .done) <$> AuthService.revokeRefreshToken config refreshToken
  | .logoutAll userId => (fun _ => .done) <$> AuthService.logoutAll userId
  | .authenticate token => .authenticated <$> do
      await (.verifyJwt token)
      JwtStrategy.validate token.payload

end Stellance.Auth
