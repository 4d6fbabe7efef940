import Mathlib.Data.List.Nodup
import Mathlib.Logic.Function.Basic
import Stellance.Library.Subjects
import Stellance.Backend.Data

/-! Live notifications. All connections of a user listen to one subject, which the first of
them brings about and any of them, when it closes, completes and removes. -/
namespace Stellance.Backend

/-- A row, with what the database adds to the notification. -/
structure NotificationRow extends Notification where
  id : Uuid
  read : Bool
  createdAt : Nat
  deriving DecidableEq

/-- The streams of the service: for each user the subject, if there is one, among all that were
ever made. -/
structure NotificationsService (σ : Type) where
  subjects : List σ
  streams : Uuid → Option Nat

/-- A connection and what it has been sent. -/
structure Connection where
  userId : Uuid
  subject : Nat
  closed : Bool
  received : List NotificationRow

def Connection.shut (connection : Connection) : Connection := { connection with closed := true }

def Connection.receive (row : NotificationRow) (connection : Connection) : Connection :=
  { connection with received := connection.received ++ [row] }

/-- A service and its connections, by the order in which they were opened. -/
structure LiveServer (σ : Type) where
  service : NotificationsService σ
  connections : List Connection

section Code
variable {σ : Type} (rx : Subjects σ Nat)

namespace NotificationsService

def empty : NotificationsService σ := ⟨[], fun _ => none⟩

def getStream (service : NotificationsService σ) (userId : Uuid) : Nat × NotificationsService σ :=
  match service.streams userId with
  | some subject => (subject, service)
  | none =>
    (service.subjects.length,
      { subjects := service.subjects ++ [rx.fresh]
        streams := Function.update service.streams userId (some service.subjects.length) })

def removeStream (service : NotificationsService σ) (userId : Uuid) : NotificationsService σ :=
  match service.streams userId with
  | some subject =>
    { subjects := service.subjects.modify subject rx.complete
      streams := Function.update service.streams userId none }
  | none => service

/-- What is done to a subject that is at hand. -/
def onSubject (service : NotificationsService σ) (subject : Nat) (f : σ → σ) : NotificationsService σ :=
  { service with subjects := service.subjects.modify subject f }

/-- The row is passed on to the stream of its user. -/
def emit {τ : Type} (service : NotificationsService σ) (receive : τ → Nat → τ) (userId : Uuid)
    (state : τ) : τ :=
  match (service.streams userId).bind (service.subjects[·]?) with
  | some subject => rx.next receive subject state
  | none => state

end NotificationsService

namespace LiveServer

def empty : LiveServer σ := ⟨.empty, []⟩

/-- `NotificationsController.stream`, and the subscription to what it returns. -/
def stream (server : LiveServer σ) (userId : Uuid) : LiveServer σ :=
  let (subject, service) := server.service.getStream rx userId
  { service := service.onSubject subject (rx.subscribe · server.connections.length)
    connections := server.connections ++ [⟨userId, subject, false, []⟩] }

/-- The connection closes: its user's stream is removed, and it unsubscribes. -/
def close (server : LiveServer σ) (index : Nat) (connection : Connection) : LiveServer σ where
  service := (server.service.removeStream rx connection.userId).onSubject connection.subject
    (rx.unsubscribe · index)
  connections := server.connections.modify index Connection.shut

def send (row : NotificationRow) (connections : List Connection) (index : Nat) : List Connection :=
  connections.modify index (.receive row)

/-- `NotificationsService.create`, once the row is there. -/
def create (server : LiveServer σ) (row : NotificationRow) : LiveServer σ :=
  { server with connections := server.service.emit rx (send row) row.userId server.connections }

end LiveServer
end Code

/-! ### Streams -/

namespace NotificationsService
variable {σ : Type} {rx : Subjects σ Nat} {service : NotificationsService σ} {userId other : Uuid}
  {key index : Nat} {listens : Nat → Prop} {f : σ → σ} {subject : σ}

/-- Each user has a subject of their own. -/
structure Apart (service : NotificationsService σ) : Prop where
  bounded : ∀ userId key, service.streams userId = some key → key < service.subjects.length
  own : ∀ userId other key, service.streams userId = some key → service.streams other = some key →
    userId = other

/-- The stream of a user has exactly the observers that listen. -/
def Carries (rx : Subjects σ Nat) (service : NotificationsService σ) (userId : Uuid) (listens : Nat → Prop) :
    Prop :=
  match service.streams userId with
  | some key => ∃ subject, service.subjects[key]? = some subject ∧ rx.stopped subject = false ∧
      (rx.observers subject).Nodup ∧ ∀ index, index ∈ rx.observers subject ↔ listens index
  | none => ∀ index, ¬ listens index

theorem carries_some (stream : service.streams userId = some key) (found : service.subjects[key]? = some subject) :
    service.Carries rx userId listens ↔ rx.stopped subject = false ∧ (rx.observers subject).Nodup ∧
      ∀ index, index ∈ rx.observers subject ↔ listens index := by
  simp [Carries, stream, found]

theorem carries_none (missing : service.streams userId = none) :
    service.Carries rx userId listens ↔ ∀ index, ¬ listens index := by
  simp [Carries, missing]

theorem Carries.congr {listens' : Nat → Prop} (carries : service.Carries rx userId listens)
    (same : ∀ index, listens index ↔ listens' index) : service.Carries rx userId listens' := by
  obtain rfl : listens = listens' := funext fun index => propext (same index)
  exact carries

/-- A stream is only what its own subject is. -/
theorem Carries.frame {service' : NotificationsService σ} (carries : service.Carries rx userId listens)
    (streams : service'.streams userId = service.streams userId)
    (subjects : ∀ key, service.streams userId = some key → service'.subjects[key]? = service.subjects[key]?) :
    service'.Carries rx userId listens := by
  unfold Carries at carries ⊢
  rw [streams]
  cases stream : service.streams userId with
  | none => simpa only [stream] using carries
  | some key => simpa only [stream, subjects key stream] using carries

theorem getStream_stream : (service.getStream rx userId).2.streams userId =
    some (service.getStream rx userId).1 := by
  unfold getStream
  split
  · assumption
  · exact Function.update_self _ _ _

theorem getStream_apart (apart : service.Apart) : (service.getStream rx userId).2.Apart := by
  unfold getStream
  split
  · exact apart
  · constructor
    · intro user key stream
      simp only [Function.update_apply] at stream
      rw [List.length_append, List.length_singleton]
      split at stream
      · obtain rfl := Option.some.inj stream
        omega
      · have := apart.bounded user key stream
        omega
    · intro user other key stream stream'
      simp only [Function.update_apply] at stream stream'
      split at stream <;> split at stream'
      · simp_all
      · have := apart.bounded other key stream'
        simp_all
      · have := apart.bounded user key stream
        simp_all
      · exact apart.own user other key stream stream'

theorem getStream_carries (apart : service.Apart) (carries : service.Carries rx other listens) :
    (service.getStream rx userId).2.Carries rx other listens := by
  unfold getStream
  split
  · exact carries
  · rename_i missing
    by_cases own : other = userId
    · subst own
      refine (carries_some (Function.update_self _ _ _) (List.getElem?_concat_length ..)).mpr ?_
      have nobody := (carries_none missing).mp carries
      simp [nobody]
    · refine carries.frame (Function.update_of_ne own _ _) fun key stream => ?_
      exact List.getElem?_append_left (apart.bounded other key stream)

theorem onSubject_apart (apart : service.Apart) : (service.onSubject key f).Apart := by
  constructor
  · intro userId key stream
    rw [onSubject, List.length_modify]
    exact apart.bounded userId key stream
  · exact apart.own

theorem onSubject_stream (stream : service.streams userId = some key) :
    (service.onSubject index f).streams userId = some key := stream

theorem onSubject_found (found : service.subjects[key]? = some subject) :
    (service.onSubject key f).subjects[key]? = some (f subject) := by
  simp [onSubject, found]

theorem onSubject_away (differ : index ≠ key) :
    (service.onSubject index f).subjects[key]? = service.subjects[key]? := by
  simp [onSubject, differ]

/-- What is done to the subject of one user leaves the others. -/
theorem onSubject_other (apart : service.Apart) (stream : service.streams userId = some key)
    (differ : other ≠ userId) (carries : service.Carries rx other listens) :
    (service.onSubject key f).Carries rx other listens := by
  refine carries.frame rfl fun key' stream' => ?_
  refine onSubject_away ?_
  rintro rfl
  exact differ (apart.own other userId key stream' stream)

theorem subscribe_carries (apart : service.Apart) (stream : service.streams userId = some key)
    (new : ¬ listens index) (carries : service.Carries rx userId listens) :
    (service.onSubject key (rx.subscribe · index)).Carries rx userId fun i => listens i ∨ i = index := by
  have found := List.getElem?_eq_getElem (apart.bounded userId key stream)
  obtain ⟨live, nodup, observers⟩ := (carries_some stream found).mp carries
  refine (carries_some (onSubject_stream stream) (onSubject_found found)).mpr ?_
  rw [rx.subscribe_stopped, rx.subscribe_observers, live]
  refine ⟨rfl, ?_, fun i => ?_⟩
  · rw [if_neg (by decide), List.nodup_append]
    refine ⟨nodup, List.nodup_singleton _, ?_⟩
    rintro old member new' single rfl
    obtain rfl := List.mem_singleton.mp single
    exact new ((observers old).mp member)
  · simp [observers]

/-- One who does not listen may unsubscribe anywhere. -/
theorem unsubscribe_carries (away : ¬ listens index) (carries : service.Carries rx userId listens) :
    (service.onSubject key (rx.unsubscribe · index)).Carries rx userId listens := by
  cases stream : service.streams userId with
  | none => exact carries.frame rfl fun _ found => by simp [stream] at found
  | some key' =>
    by_cases same : key = key'
    · subst same
      unfold Carries at carries
      rw [stream] at carries
      obtain ⟨subject, found, live, nodup, observers⟩ := carries
      refine (carries_some (onSubject_stream stream) (onSubject_found found)).mpr ?_
      rw [rx.unsubscribe_stopped, rx.unsubscribe_observers,
        List.erase_of_not_mem fun member => away ((observers index).mp member)]
      exact ⟨live, nodup, observers⟩
    · refine carries.frame rfl fun key'' stream' => onSubject_away ?_
      rintro rfl
      exact same (Option.some.inj (stream'.symm.trans stream))

theorem removeStream_none : (service.removeStream rx userId).streams userId = none := by
  unfold removeStream
  split
  · exact Function.update_self _ _ _
  · assumption

theorem removeStream_apart (apart : service.Apart) : (service.removeStream rx userId).Apart := by
  unfold removeStream
  split
  · constructor
    · intro user key stream
      simp only [Function.update_apply] at stream
      rw [List.length_modify]
      split at stream
      · contradiction
      · exact apart.bounded user key stream
    · intro user other key stream stream'
      simp only [Function.update_apply] at stream stream'
      split at stream <;> split at stream' <;> try contradiction
      exact apart.own user other key stream stream'
  · exact apart

theorem removeStream_other (apart : service.Apart) (differ : other ≠ userId)
    (carries : service.Carries rx other listens) :
    (service.removeStream rx userId).Carries rx other listens := by
  unfold removeStream
  split
  · rename_i key stream
    refine (onSubject_other apart stream differ carries (f := rx.complete)).frame ?_ fun _ _ => rfl
    exact Function.update_of_ne differ _ _
  · exact carries

end NotificationsService

/-! ### Rows -/

namespace LiveServer
variable {σ : Type} {rx : Subjects σ Nat} {service : NotificationsService σ} {row : NotificationRow}
  {connections : List Connection} {index : Nat} {listens : Nat → Prop}

/-- What is sent to each of some connections, is sent to them alone. -/
theorem send_all {observers : List Nat} (nodup : observers.Nodup) (connections : List Connection) :
    (observers.foldl (send row) connections)[index]? =
      if index ∈ observers then connections[index]?.map (.receive row) else connections[index]? := by
  induction observers generalizing connections with
  | nil => rfl
  | cons first rest ih =>
    obtain ⟨absent, nodup⟩ := List.nodup_cons.mp nodup
    rw [List.foldl_cons, ih nodup]
    by_cases here : first = index
    · subst here
      rw [if_neg absent, if_pos List.mem_cons_self, send, List.getElem?_modify_eq]
      rfl
    · rw [send, List.getElem?_modify_ne _ _ here]
      simp [Ne.symm here]

theorem emit_getElem [Decidable (listens index)] (carries : service.Carries rx row.userId listens) :
    (service.emit rx (send row) row.userId connections)[index]? =
      if listens index then connections[index]?.map (.receive row) else connections[index]? := by
  unfold NotificationsService.Carries at carries
  split at carries
  · rename_i key stream
    obtain ⟨subject, found, _, nodup, observers⟩ := carries
    simp only [NotificationsService.emit, stream, Option.bind_some, found, Subjects.next]
    rw [send_all nodup]
    exact if_congr (observers index) rfl rfl
  · rename_i missing
    simp only [NotificationsService.emit, missing, Option.bind_none]
    exact (if_neg (carries index)).symm

theorem emit_listening (carries : service.Carries rx row.userId listens) (here : listens index) :
    (service.emit rx (send row) row.userId connections)[index]? = connections[index]?.map (.receive row) := by
  classical
  rw [emit_getElem carries, if_pos here]

theorem emit_away (carries : service.Carries rx row.userId listens) (away : ¬ listens index) :
    (service.emit rx (send row) row.userId connections)[index]? = connections[index]? := by
  classical
  rw [emit_getElem carries, if_neg away]

end LiveServer

end Stellance.Backend
