import Stellance.Library.Process
import Stellance.Backend.Withdrawals
import Stellance.Auth.AuthService

/-! The users endpoints. A user row is kept in two parts, the account the auth service
works with and the Stellar key the contracts need; here both are read and written. Pages
are asked for in numbers, a query that is none being refused by the database. -/
namespace Stellance.Auth
open Backend (Uuid UserRole)

/-- A user row, both parts of it. -/
structure UserRow where
  account : User
  stellarPublicKey : Option String
  deriving DecidableEq

/-- `Omit<User, 'password'>` -/
structure UserProfile where
  user : SafeUser
  stellarPublicKey : Option String
  deriving DecidableEq

/-- What the list of all users selects. -/
structure UserSummary where
  id : Uuid
  email : String
  name : String
  role : UserRole
  stellarPublicKey : Option String
  deriving DecidableEq

structure UserPage where
  data : List UserSummary
  total : Nat
  page : Nat
  limit : Nat
  totalPages : Nat
  deriving DecidableEq

/-- Fields of a profile update, absent, null or given. -/
structure UpdateProfileDto where
  name : Option (Option String)
  stellarPublicKey : Option (Option String)
  short : ∀ text, name = some (some text) → text.length ≤ 100
  shaped : ∀ key, stellarPublicKey = some (some key) → Backend.stellarKey key = true

namespace UserRow

def profile (row : UserRow) : UserProfile := ⟨row.account.result, row.stellarPublicKey⟩

def summary (row : UserRow) : UserSummary where
  id := row.account.id
  email := row.account.email
  name := row.account.name
  role := row.account.role
  stellarPublicKey := row.stellarPublicKey

end UserRow

namespace UsersService

inductive Op where
  | findOneById (id : Uuid)
  | findOneByKey (stellarPublicKey : String)
  | update (id : Uuid) (name stellarPublicKey : Option (Option String))
  | findMany (skip take : Nat)
  | count

abbrev Op.Answer : Op → Type
  | .findOneById _ => Option UserRow
  | .findOneByKey _ => Option Uuid
  | .update .. => UserRow
  | .findMany .. => List UserRow
  | .count => Nat

abbrev Request (α : Type) := Process Failure Op Op.Answer α

def await (op : Op) : Request op.Answer := Process.perform op

def maxPageSize : Int := 100
def defaultPageSize : Int := 20

/-- `UsersController.me` -/
def me (userId : Uuid) : Request UserProfile := do
  let user ← await (.findOneById userId)
  let user ← Process.orThrow user (.unauthorized "Unauthorized")
  pure user.profile

/-- The key must not be another user's. -/
def checkKey (id : Uuid) (stellarPublicKey : Option String) : Request Unit :=
  match stellarPublicKey with
  | none => pure ()
  | some key => do
    let existing ← await (.findOneByKey key)
    Process.throwIf (existing.any (· ≠ id) = true)
      (.conflict "Stellar public key already registered to another account")

def updateProfile (id : Uuid) (dto : UpdateProfileDto) : Request UserProfile := do
  checkKey id dto.stellarPublicKey.join
  let user ← await (.update id dto.name dto.stellarPublicKey)
  pure user.profile

/-- `UsersController.findAll`, with the numbers that the query strings stand for. -/
def findAll (role : UserRole) (page limit : Option Int) : Request UserPage := do
  Process.throwIf (role ≠ .admin) (.forbidden "Admin access required")
  let page := max 1 (page.getD 1)
  let limit := min maxPageSize (max 1 (limit.getD defaultPageSize))
  let skip := (page - 1) * limit
  let users ← await (.findMany skip.toNat limit.toNat)
  let total ← await .count
  pure
    { data := users.map UserRow.summary
      total
      page := page.toNat
      limit := limit.toNat
      totalPages := (total + limit.toNat - 1) / limit.toNat }

inductive Endpoint where
  | me
  | updateMe (dto : UpdateProfileDto)
  | findAll (page limit : Option Int)

inductive Response where
  | profile (profile : UserProfile)
  | page (page : UserPage)
  deriving DecidableEq

/-- A request of a user who was let in. -/
def handle (request : Identity × Endpoint) : Request Response :=
  match request.2 with
  | .me => .profile <$> me request.1.id
  | .updateMe dto => .profile <$> updateProfile request.1.id dto
  | .findAll page limit => .page <$> findAll request.1.role page limit

/-! ### The tables -/

/-- The two parts of the user table. -/
structure Tables where
  accounts : Table User.id
  keys : Table Backend.User.id

def Tables.row (tables : Tables) (account : User) : UserRow :=
  ⟨account, (tables.keys.find account.id).bind Backend.User.stellarPublicKey⟩

def renamed (name : Option (Option String)) (account : User) : User :=
  { account with name := name.join.getD account.name }

theorem renamed_id (name : Option (Option String)) (account : User) : (renamed name account).id = account.id :=
  rfl

def rekeyed (stellarPublicKey : Option (Option String)) (user : Backend.User) : Backend.User :=
  { user with stellarPublicKey := stellarPublicKey.getD user.stellarPublicKey }

theorem rekeyed_id (stellarPublicKey : Option (Option String)) (user : Backend.User) :
    (rekeyed stellarPublicKey user).id = user.id := rfl

/-- `data: { name?, stellarPublicKey? }`. A name is not null, and a key has one owner. -/
def Tables.update (tables : Tables) (id : Uuid) (name stellarPublicKey : Option (Option String)) :
    Option Tables := do
  guard ((tables.accounts.find id).isSome = true ∧ name ≠ some none ∧
    ∀ user ∈ tables.keys.rows, user.id = id ∨ stellarPublicKey.join = none ∨
      user.stellarPublicKey ≠ stellarPublicKey.join)
  some
    { accounts := tables.accounts.modify id (renamed name) (renamed_id name)
      keys := tables.keys.modify id (rekeyed stellarPublicKey) (rekeyed_id stellarPublicKey) }

/-- The answers of the database; any statement may also fail. -/
inductive Serves (tables : Tables) : (op : Op) → Except Failure op.Answer → Tables → Prop where
  | foundById (id : Uuid) :
      Serves tables (.findOneById id) (.ok ((tables.accounts.find id).map tables.row)) tables
  | foundByKey (key : String) :
      Serves tables (.findOneByKey key)
        (.ok ((tables.keys.rows.find? (·.stellarPublicKey = some key)).map Backend.User.id)) tables
  | updated {id : Uuid} {name stellarPublicKey : Option (Option String)} {tables' : Tables} {account : User}
      (updated : tables.update id name stellarPublicKey = some tables')
      (stored : tables'.accounts.find id = some account) :
      Serves tables (.update id name stellarPublicKey) (.ok (tables'.row account)) tables'
  | listed (skip take : Nat) :
      Serves tables (.findMany skip take)
        (.ok (((tables.accounts.rows.reverse.drop skip).take take).map tables.row)) tables
  | counted : Serves tables .count (.ok tables.accounts.rows.length) tables
  | rejected (op : Op) (error : Failure) : Serves tables op (.error error) tables

/-- No statement of these endpoints writes a role. -/
theorem serves_role {tables tables' : Tables} {op : Op} {answer : Except Failure op.Answer} {key : Uuid}
    {account : User} (served : Serves tables op answer tables')
    (found : tables'.accounts.find key = some account) :
    ∃ before, tables.accounts.find key = some before ∧ before.role = account.role := by
  cases served with
  | @updated id name _ _ _ updated _ =>
    simp only [Tables.update, Option.bind_eq_bind, Option.bind_eq_some_iff] at updated
    obtain ⟨_, _, same⟩ := updated
    cases same
    rw [Table.find_modify (renamed_id name)] at found
    split at found
    · rename_i here
      obtain ⟨before, stored, rfl⟩ := Option.map_eq_some_iff.mp found
      exact ⟨before, here ▸ stored, rfl⟩
    · exact ⟨account, found, rfl⟩
  | _ => exact ⟨account, found, rfl⟩

end UsersService
end Stellance.Auth
