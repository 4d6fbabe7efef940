import Stellance.Library.Runs
import Stellance.Backend.Interpreter
import Stellance.Backend.Notifications

/-! Who receives what. Beside the server stands what its connections are owed, an account of the
same events as their users see them; what was sent agrees with it until a notification is
created for a user one of whose connections was left behind by the closing of another. -/
namespace Stellance.Backend

/-! ### What should be received -/

/-- A connection as its user sees it. It is bereft when another one of the user has been closed
since it was opened. -/
structure Seat where
  userId : Uuid
  closed : Bool
  bereft : Bool
  owed : List NotificationRow

namespace Seat

def opened (userId : Uuid) : Seat := ⟨userId, false, false, []⟩

/-- The connection is open, and none of its user was closed since. -/
def Listens (seat : Seat) (userId : Uuid) : Prop :=
  seat.userId = userId ∧ seat.closed = false ∧ seat.bereft = false

def shut (seat : Seat) : Seat := { seat with closed := true }

/-- Another connection of the user closes. -/
def left (seat : Seat) (userId : Uuid) : Seat :=
  if seat.userId = userId then { seat with bereft := true } else seat

/-- Every open connection of a user is owed what is created for the user. -/
def owe (seat : Seat) (row : NotificationRow) : Seat :=
  if seat.userId = row.userId ∧ seat.closed = false then { seat with owed := seat.owed ++ [row] } else seat

end Seat

/-- The server, and beside it what its connections are owed. -/
structure LiveStage (σ : Type) where
  server : LiveServer σ
  seats : List Seat

inductive LiveEvent where
  | stream (userId : Uuid)
  | close (index : Nat)
  | create (row : NotificationRow)

namespace LiveStage
variable {σ : Type}

def empty : LiveStage σ := ⟨.empty, []⟩

/-- Connections are opened and closed, and notifications created, in any order. -/
inductive Step (rx : Subjects σ Nat) : LiveStage σ → LiveEvent → LiveStage σ → Prop where
  | stream {stage : LiveStage σ} (userId : Uuid) :
      Step rx stage (.stream userId) ⟨stage.server.stream rx userId, stage.seats ++ [.opened userId]⟩
  | close {stage : LiveStage σ} {index : Nat} {connection : Connection}
      (found : stage.server.connections[index]? = some connection) (opened : connection.closed = false) :
      Step rx stage (.close index) ⟨stage.server.close rx index connection,
        (stage.seats.map (·.left connection.userId)).modify index Seat.shut⟩
  | create {stage : LiveStage σ} (row : NotificationRow) :
      Step rx stage (.create row) ⟨stage.server.create rx row, stage.seats.map (·.owe row)⟩

/-- Every connection has received what it is owed, in this order and no more. -/
def Delivered (stage : LiveStage σ) : Prop :=
  stage.server.connections.map Connection.received = stage.seats.map Seat.owed

instance (stage : LiveStage σ) : Decidable stage.Delivered := inferInstanceAs (Decidable (_ = _))

/-- A notification is created for a user with an open connection that is bereft. -/
def Misses (stage : LiveStage σ) : LiveEvent → Prop
  | .create row => ∃ seat ∈ stage.seats, seat.userId = row.userId ∧ seat.closed = false ∧ seat.bereft = true
  | .stream _ | .close _ => False

end LiveStage

/-! ### Seats -/

/-- Who of the connections still listens to the stream of a user. -/
def Listening (seats : List Seat) (userId : Uuid) (index : Nat) : Prop :=
  ∃ seat, seats[index]? = some seat ∧ seat.Listens userId

section Seats
variable {seats : List Seat} {seat : Seat} {userId other : Uuid} {index place : Nat} {row : NotificationRow}

theorem Seat.opened_listens : (Seat.opened userId).Listens other ↔ other = userId := by
  simp [Listens, opened, eq_comm]

theorem Seat.shut_listens : ¬ seat.shut.Listens userId := by
  simp [Listens, shut]

theorem Seat.left_listens : (seat.left userId).Listens other ↔ other ≠ userId ∧ seat.Listens other := by
  unfold Listens left
  split
  · rename_i own
    subst own
    simp only [Bool.true_eq_false, and_false, false_iff, not_and]
    intro differ same
    exact absurd same.symm differ
  · rename_i differ
    constructor
    · rintro ⟨rfl, opened, near⟩
      exact ⟨differ, rfl, opened, near⟩
    · exact And.right

theorem Seat.owe_listens : (seat.owe row).Listens userId ↔ seat.Listens userId := by
  unfold Listens owe
  split <;> rfl

theorem listening_opened : Listening (seats ++ [.opened userId]) other index ↔
    Listening seats other index ∨ index = seats.length ∧ other = userId := by
  unfold Listening
  rcases Nat.lt_trichotomy index seats.length with less | rfl | more
  · rw [List.getElem?_append_left less]
    simp [Nat.ne_of_lt less]
  · simp [Seat.opened_listens]
  · have past : (seats ++ [.opened userId])[index]? = none := by
      rw [List.getElem?_eq_none_iff, List.length_append, List.length_singleton]
      omega
    have past' : seats[index]? = none := List.getElem?_eq_none (Nat.le_of_lt more)
    simp [past, past', Nat.ne_of_gt more]

theorem not_listening_new : ¬ Listening seats userId seats.length := by
  simp [Listening]

theorem listening_closed (found : seats[place]? = some seat) :
    Listening ((seats.map (·.left seat.userId)).modify place Seat.shut) other index ↔
      other ≠ seat.userId ∧ Listening seats other index := by
  unfold Listening
  by_cases here : place = index
  · subst here
    rw [List.getElem?_modify_eq, List.getElem?_map, found]
    constructor
    · rintro ⟨_, same, listens⟩
      obtain rfl := Option.some.inj same
      exact absurd listens Seat.shut_listens
    · rintro ⟨differ, seat', same, own, _⟩
      obtain rfl := Option.some.inj same
      exact absurd own.symm differ
  · rw [List.getElem?_modify_ne _ _ here, List.getElem?_map]
    cases seats[index]? with
    | none => simp
    | some old => simp [Seat.left_listens]

theorem listening_owed : Listening (seats.map (·.owe row)) userId index ↔ Listening seats userId index := by
  unfold Listening
  rw [List.getElem?_map]
  cases seats[index]? with
  | none => simp
  | some seat => simp [Seat.owe_listens]

end Seats

/-! ### Every run -/

theorem map_eq_iff {A B C : Type} {left : List A} {right : List B} {f : A → C} {g : B → C} :
    left.map f = right.map g ↔ ∀ index : Nat, left[index]?.map f = right[index]?.map g := by
  simp [List.ext_getElem?_iff]

theorem modify_map_eq {A B C : Type} {left : List A} {right : List B} {f : A → C} {g : B → C} {h : A → A}
    {k : B → B} (index : Nat) (same : left.map f = right.map g) (step : ∀ a b, f a = g b → f (h a) = g (k b)) :
    (left.modify index h).map f = (right.modify index k).map g := by
  rw [map_eq_iff] at same ⊢
  intro place
  by_cases here : index = place
  · subst here
    rw [List.getElem?_modify_eq, List.getElem?_modify_eq]
    have both := same index
    cases first : left[index]? with
    | none =>
      rw [first, Option.map_none, eq_comm, Option.map_eq_none_iff] at both
      rw [both]
      rfl
    | some a =>
      rw [first] at both
      obtain ⟨b, second, equal⟩ := Option.map_eq_some_iff.mp both.symm
      rw [second]
      exact congrArg some (step a b equal.symm)
  · rw [List.getElem?_modify_ne _ _ here, List.getElem?_modify_ne _ _ here]
    exact same place

def Connection.who (connection : Connection) : Uuid × Bool := (connection.userId, connection.closed)

def Seat.who (seat : Seat) : Uuid × Bool := (seat.userId, seat.closed)

section Kept
variable {seats : List Seat} {seat : Seat} {userId : Uuid} {row : NotificationRow}

theorem Seat.left_who : (seat.left userId).who = seat.who := by
  unfold left
  split <;> rfl

theorem Seat.left_owed : (seat.left userId).owed = seat.owed := by
  unfold left
  split <;> rfl

theorem Seat.owe_who : (seat.owe row).who = seat.who := by
  unfold owe
  split <;> rfl

end Kept

namespace LiveStage
variable {σ : Type} {rx : Subjects σ Nat} {stage stage' start last : LiveStage σ} {event : LiveEvent} {index : Nat}
  {connection : Connection} {row : NotificationRow}

/-- The seats are those of the connections, and the stream of each user has for its observers the
open connections that are not bereft. -/
structure Sound (rx : Subjects σ Nat) (stage : LiveStage σ) : Prop where
  apart : stage.server.service.Apart
  seated : stage.server.connections.map Connection.who = stage.seats.map Seat.who
  carries : ∀ userId, stage.server.service.Carries rx userId (Listening stage.seats userId)

theorem empty_sound : (empty : LiveStage σ).Sound rx where
  apart := ⟨nofun, nofun⟩
  seated := rfl
  carries _ index := by simp [Listening, empty]

theorem Sound.length (sound : stage.Sound rx) : stage.server.connections.length = stage.seats.length := by
  simpa using congrArg List.length sound.seated

/-- The seat of a connection. -/
theorem Sound.seat (sound : stage.Sound rx) (found : stage.server.connections[index]? = some connection) :
    ∃ seat, stage.seats[index]? = some seat ∧ seat.who = connection.who := by
  have same := map_eq_iff.mp sound.seated index
  rw [found] at same
  exact Option.map_eq_some_iff.mp same.symm

theorem stream_sound (sound : stage.Sound rx) (userId : Uuid) :
    Sound rx ⟨stage.server.stream rx userId, stage.seats ++ [.opened userId]⟩ where
  apart := NotificationsService.onSubject_apart (NotificationsService.getStream_apart sound.apart)
  seated := by
    simp only [LiveServer.stream, List.map_append, sound.seated]
    rfl
  carries other := by
    have apart : (stage.server.service.getStream rx userId).2.Apart :=
      NotificationsService.getStream_apart sound.apart
    have carries : (stage.server.service.getStream rx userId).2.Carries rx other (Listening stage.seats other) :=
      NotificationsService.getStream_carries sound.apart (sound.carries other)
    by_cases own : other = userId
    · subst own
      have new : ¬ Listening stage.seats other stage.server.connections.length := by
        rw [sound.length]
        exact not_listening_new
      refine (NotificationsService.subscribe_carries apart NotificationsService.getStream_stream new
        carries).congr fun index => ?_
      rw [listening_opened, sound.length]
      simp
    · refine (NotificationsService.onSubject_other apart NotificationsService.getStream_stream own
        carries).congr fun index => ?_
      rw [listening_opened]
      simp [own]

theorem close_seated (sound : stage.Sound rx) (userId : Uuid) :
    (stage.server.connections.modify index Connection.shut).map Connection.who =
      ((stage.seats.map (·.left userId)).modify index Seat.shut).map Seat.who := by
  refine modify_map_eq index ?_ fun connection seat same => ?_
  · simp only [List.map_map, Function.comp_def, Seat.left_who, sound.seated]
  · exact congrArg (fun who : Uuid × Bool => (who.1, true)) same

theorem close_sound (sound : stage.Sound rx) (found : stage.server.connections[index]? = some connection) :
    Sound rx ⟨stage.server.close rx index connection,
      (stage.seats.map (·.left connection.userId)).modify index Seat.shut⟩ := by
  obtain ⟨seat, seated, who⟩ := sound.seat found
  have user : connection.userId = seat.userId := congrArg Prod.fst who.symm
  rw [user]
  refine ⟨?_, close_seated sound _, fun other => ?_⟩
  · exact NotificationsService.onSubject_apart (NotificationsService.removeStream_apart sound.apart)
  · rw [LiveServer.close, user]
    by_cases own : other = seat.userId
    · subst own
      refine (NotificationsService.carries_none ?_).mpr fun place listens => ?_
      · exact NotificationsService.removeStream_none
      · exact ((listening_closed seated).mp listens).1 rfl
    · have away : ¬ Listening stage.seats other index := by
        rintro ⟨seat', same, listens⟩
        obtain rfl := Option.some.inj (seated.symm.trans same)
        exact own listens.1.symm
      refine (NotificationsService.unsubscribe_carries away
        (NotificationsService.removeStream_other sound.apart own (sound.carries other))).congr fun place => ?_
      rw [listening_closed seated]
      simp [own]

theorem create_sound (sound : stage.Sound rx) (row : NotificationRow) :
    Sound rx ⟨stage.server.create rx row, stage.seats.map (·.owe row)⟩ where
  apart := sound.apart
  seated := by
    rw [map_eq_iff]
    intro index
    have same := map_eq_iff.mp sound.seated index
    have kept : (stage.server.create rx row).connections[index]?.map Connection.who =
        stage.server.connections[index]?.map Connection.who := by
      by_cases here : Listening stage.seats row.userId index
      · rw [LiveServer.create, LiveServer.emit_listening (sound.carries row.userId) here, Option.map_map]
        rfl
      · rw [LiveServer.create, LiveServer.emit_away (sound.carries row.userId) here]
    rw [kept, same, List.getElem?_map, Option.map_map]
    exact congrArg (Option.map · _) (funext fun seat => Seat.owe_who.symm)
  carries userId := (sound.carries userId).congr fun index => listening_owed.symm

/-- A notification reaches the open connections of its user exactly where none of them is bereft. -/
theorem create_delivered (sound : stage.Sound rx) (delivered : stage.Delivered) :
    Delivered ⟨stage.server.create rx row, stage.seats.map (·.owe row)⟩ ↔ ¬ stage.Misses (.create row) := by
  constructor
  · rintro all ⟨seat, member, user, opened, bereft⟩
    obtain ⟨index, seated⟩ := List.mem_iff_getElem?.mp member
    have away : ¬ Listening stage.seats row.userId index := by
      rintro ⟨seat', same, _, _, near⟩
      obtain rfl := Option.some.inj (seated.symm.trans same)
      simp [bereft] at near
    have before := map_eq_iff.mp delivered index
    have after := map_eq_iff.mp all index
    rw [LiveServer.create, LiveServer.emit_away (sound.carries row.userId) away, before, List.getElem?_map,
      seated] at after
    simp [Seat.owe, user, opened] at after
  · intro hit
    rw [Delivered, map_eq_iff]
    intro index
    have before := map_eq_iff.mp delivered index
    rw [List.getElem?_map]
    by_cases here : Listening stage.seats row.userId index
    · rw [LiveServer.create, LiveServer.emit_listening (sound.carries row.userId) here]
      obtain ⟨seat, seated, user, opened, _⟩ := here
      rw [seated] at before ⊢
      obtain ⟨connection, found, same⟩ := Option.map_eq_some_iff.mp before
      simp [found, Seat.owe, user, opened, Connection.receive, same]
    · rw [LiveServer.create, LiveServer.emit_away (sound.carries row.userId) here, before]
      cases seated : stage.seats[index]? with
      | none => rfl
      | some seat =>
        have unowed : ¬ (seat.userId = row.userId ∧ seat.closed = false) := by
          rintro ⟨user, opened⟩
          refine hit ⟨seat, List.mem_of_getElem? seated, user, opened, ?_⟩
          by_contra near
          exact here ⟨seat, seated, user, opened, by simpa using near⟩
        simp [Seat.owe, unowed]

/-- What one event keeps, and when what is owed is delivered in it. -/
theorem step_delivered (sound : stage.Sound rx) (delivered : stage.Delivered)
    (step : Step rx stage event stage') : stage'.Sound rx ∧ (stage'.Delivered ↔ ¬ stage.Misses event) := by
  cases step with
  | stream userId =>
    refine ⟨stream_sound sound userId, iff_of_true ?_ not_false⟩
    rw [Delivered, LiveServer.stream, List.map_append, List.map_append, delivered]
    rfl
  | @close index connection found opened =>
    refine ⟨close_sound sound found, iff_of_true ?_ not_false⟩
    refine modify_map_eq index ?_ fun _ _ same => same
    simp only [List.map_map, Function.comp_def, Seat.left_owed]
    exact delivered
  | create row => exact ⟨create_sound sound row, create_delivered sound delivered⟩

/-- In a run of streams, closings and notifications each open connection receives what is created
for its user, once and in order, exactly where nothing is created for a user with an open
connection that another one of theirs has left behind. -/
theorem notifications_delivered_iff {trace : List (LiveStage σ × LiveEvent)}
    (run : Runs.Run (Step rx) start trace last) (fresh : start = empty) :
    (∀ earlier rest stage, trace = earlier ++ rest → Runs.Run (Step rx) start earlier stage →
      Runs.Run (Step rx) stage rest last → stage.Delivered) ↔
      ∀ point ∈ trace, ¬ point.1.Misses point.2 := by
  subst fresh
  exact run.throughout_iff (J := Sound rx) empty_sound rfl
    fun sound delivered step => step_delivered sound delivered step

end LiveStage

/-! ### One connection, and two -/

namespace Sample

def notificationRow : NotificationRow where
  userId := clientId
  type := .milestoneSubmitted
  title := "Milestone submitted"
  body := "The first one"
  contractId := some contractId
  milestoneId := none
  id := jobId
  read := false
  createdAt := 1000

/-- The client has opened a connection. -/
def oneStream : LiveStage (Bool × List Nat) :=
  ⟨LiveServer.empty.stream Subjects.listed clientId, [.opened clientId]⟩

/-- And another one. -/
def twoStreams : LiveStage (Bool × List Nat) :=
  ⟨oneStream.server.stream Subjects.listed clientId, oneStream.seats ++ [.opened clientId]⟩

def firstConnection : Connection := ⟨clientId, 0, false, []⟩

theorem oneStream_run :
    Runs.Run (LiveStage.Step Subjects.listed) .empty [(.empty, .stream clientId)] oneStream :=
  .single (.stream clientId)

/-- What the client's connections have received when a notification has been created. -/
def notified (stage : LiveStage (Bool × List Nat)) : LiveStage (Bool × List Nat) :=
  ⟨stage.server.create Subjects.listed notificationRow, stage.seats.map (·.owe notificationRow)⟩

end Sample

namespace LiveStage

/-- The first of two connections of a user is closed: the other one is not sent anything more. -/
theorem notifications_delivered_fails : ¬ ∀ (start last : LiveStage (Bool × List Nat))
    (trace : List (LiveStage (Bool × List Nat) × LiveEvent)),
    Runs.Run (Step Subjects.listed) start trace last → start = empty → last.Delivered := by
  intro always
  have opened : Sample.twoStreams.server.connections[0]? = some Sample.firstConnection := rfl
  have run := ((Sample.oneStream_run.tail (.stream Sample.clientId)).tail (.close opened rfl)).tail
    (.create Sample.notificationRow)
  exact absurd (always _ _ _ run rfl) (by decide)

/-- One connection, and a notification. -/
theorem notifications_delivered_iff_sample : (Sample.notified Sample.oneStream).Delivered := by
  have run := Sample.oneStream_run.tail (.create Sample.notificationRow)
  refine (notifications_delivered_iff run rfl).mpr ?_ _ [] _ (List.append_nil _).symm run .refl
  intro point member
  rcases List.mem_cons.mp member with rfl | member
  · exact not_false
  · obtain rfl := List.mem_singleton.mp member
    rintro ⟨seat, seated, _, _, bereft⟩
    obtain rfl := List.mem_singleton.mp seated
    contradiction

end LiveStage
end Stellance.Backend
