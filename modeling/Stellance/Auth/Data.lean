import Stellance.Backend.Data

/-! Users and their refresh tokens. A token is stored under its hash, with the version its
user had; the version counts the times the user was logged out everywhere. Times are
milliseconds. -/
namespace Stellance.Auth
open Backend (Uuid UserRole)

/-- A user without the password. -/
structure SafeUser where
  id : Uuid
  email : String
  name : String
  role : UserRole
  tokenVersion : Nat
  deriving DecidableEq

structure User where
  id : Uuid
  email : String
  name : String
  role : UserRole
  password : String
  tokenVersion : Nat
  deriving DecidableEq

/-- `const { password: _, ...result } = user`. -/
def User.result (user : User) : SafeUser :=
  { id := user.id, email := user.email, name := user.name, role := user.role,
    tokenVersion := user.tokenVersion }

structure RefreshToken where
  id : Uuid
  token : String
  userId : Uuid
  tokenVersion : Nat
  expiresAt : Nat
  revoked : Bool
  replacedByTokenId : Option Uuid
  deriving DecidableEq

structure Db where
  users : Table User.id
  refreshTokens : Table RefreshToken.id

/-- What a token is rejected with, or an error of a library. -/
inductive HttpStatus where
  | unauthorized
  | forbidden
  | conflict
  deriving DecidableEq

inductive Failure where
  | http (status : HttpStatus) (message : String)
  | internal (message : String)
  deriving DecidableEq

/-- The data of a `refreshToken.create`. -/
structure NewToken where
  token : String
  userId : Uuid
  tokenVersion : Nat
  expiresAt : Nat
  deriving DecidableEq

/-- The data of a `user.create`. -/
structure NewUser where
  email : String
  name : String
  passwordHash : String
  role : UserRole
  deriving DecidableEq

def User.logOut (user : User) : User := { user with tokenVersion := user.tokenVersion + 1 }

theorem User.logOut_id (user : User) : user.logOut.id = user.id := rfl

namespace RefreshToken

def issued (id : Uuid) (data : NewToken) : RefreshToken :=
  { id, token := data.token, userId := data.userId, tokenVersion := data.tokenVersion,
    expiresAt := data.expiresAt, revoked := false, replacedByTokenId := none }

/-- `data: { revoked: true, replacedByTokenId? }`, where an absent id leaves the column. -/
def revoke (replacement : Option Uuid) (row : RefreshToken) : RefreshToken :=
  { row with revoked := true, replacedByTokenId := replacement <|> row.replacedByTokenId }

theorem revoke_id (replacement : Option Uuid) (row : RefreshToken) : (row.revoke replacement).id = row.id :=
  rfl

end RefreshToken

namespace Db

def findUserByEmail (db : Db) (email : String) : Option User :=
  db.users.rows.find? fun user => user.email = email

def createUser (db : Db) (id : Uuid) (data : NewUser) : Option (User × Db) := do
  guard (db.findUserByEmail data.email).isNone
  let user : User :=
    { id, email := data.email, name := data.name, role := data.role, password := data.passwordHash,
      tokenVersion := 0 }
  let users ← db.users.insert user
  some (user, { db with users })

/-- `refreshToken.findUnique` by hash, with its user. -/
def findRefreshToken (db : Db) (token : String) : Option (RefreshToken × User) := do
  let row ← db.refreshTokens.rows.find? fun row => row.token = token
  let user ← db.users.find row.userId
  some (row, user)

/-- A new row under a hash not stored yet, for a user that is there. -/
def createRefreshToken (db : Db) (id : Uuid) (data : NewToken) : Option Db := do
  guard ((∀ row ∈ db.refreshTokens.rows, row.token ≠ data.token) ∧ (db.users.find data.userId).isSome)
  let refreshTokens ← db.refreshTokens.insert (.issued id data)
  some { db with refreshTokens }

/-- `refreshToken.updateMany` to revoked, over the rows not revoked yet. -/
def revokeMany (db : Db) (where' : RefreshToken → Bool) (replacement : Option Uuid) : Db :=
  { db with
    refreshTokens := db.refreshTokens.updateMany (fun row => where' row ∧ row.revoked = false)
      (·.revoke replacement) (RefreshToken.revoke_id replacement) }

/-- The count `updateMany` returns. -/
def unrevoked (db : Db) (where' : RefreshToken → Bool) : Nat :=
  db.refreshTokens.rows.countP fun row => where' row ∧ row.revoked = false

/-- The transaction of a rotation: the replacement is created, and the old row revoked if it
still can be; if not, nothing is done. -/
def rotate (db : Db) (existingId rotatedId : Uuid) (data : NewToken) : Option (Except Failure Db) :=
  (db.createRefreshToken rotatedId data).map fun created =>
    if created.unrevoked (·.id = existingId) ≠ 1 then
      .error (.http .forbidden "Refresh token reuse detected")
    else .ok (created.revokeMany (·.id = existingId) (some rotatedId))

def incrementTokenVersion (db : Db) (userId : Uuid) : Option Db :=
  if (db.users.find userId).isSome then
    some { db with users := db.users.modify userId User.logOut User.logOut_id }
  else none

end Db

end Stellance.Auth
