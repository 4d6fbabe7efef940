import Stellance.Library.Confinement
import Stellance.Library.Paging
import Stellance.Backend.Interpreter
import Stellance.Backend.Notifications

/-! The inbox. Other services put notifications in, and users list, count, mark and delete
their own; a request that names one looks first whose it is, and what it does then meets the
row as it has become. -/
namespace Stellance.Backend

/-! ### The service -/

inductive InboxOp where
  | create (data : Notification)
  | findMany (userId : Uuid) (unreadOnly : Bool)
  | count (userId : Uuid)
  | findUnique (id : Uuid)
  | update (id : Uuid)
  | updateMany (userId : Uuid)
  | delete (id : Uuid)

abbrev InboxOp.Answer : InboxOp → Type
  | .create _ | .update _ | .delete _ => NotificationRow
  | .findMany .. => List NotificationRow
  | .count _ | .updateMany _ => Nat
  | .findUnique _ => Option NotificationRow

abbrev InboxRequest (α : Type) := Process Failure InboxOp InboxOp.Answer α

def InboxOp.await (op : InboxOp) : InboxRequest op.Answer := Process.perform op

namespace NotificationsService

/-- `create`, up to the row; who is told of it live is another matter. -/
def create (dto : Notification) : InboxRequest NotificationRow := InboxOp.await (.create dto)

def findAll (userId : Uuid) (unreadOnly : Bool) : InboxRequest (List NotificationRow) :=
  InboxOp.await (.findMany userId unreadOnly)

def countUnread (userId : Uuid) : InboxRequest Nat := InboxOp.await (.count userId)

/-- `if (!notification || notification.userId !== userId)` -/
def owned (id userId : Uuid) : InboxRequest Unit := do
  let notification ← InboxOp.await (.findUnique id)
  Process.throwIf (notification.all (·.userId ≠ userId) = true)
    (.http .notFound ("Notification " ++ String.ofList id.text ++ " not found"))

def markRead (id userId : Uuid) : InboxRequest NotificationRow := do
  owned id userId
  InboxOp.await (.update id)

def markAllRead (userId : Uuid) : InboxRequest Nat := InboxOp.await (.updateMany userId)

def deleteOne (id userId : Uuid) : InboxRequest Unit := do
  owned id userId
  let _ ← InboxOp.await (.delete id)
  pure ()

end NotificationsService

/-- A call of the service: `create` by another service, the rest by a user. -/
inductive InboxCall where
  | create (dto : Notification)
  | findAll (userId : Uuid) (unreadOnly : Option String)
  | countUnread (userId : Uuid)
  | markAllRead (userId : Uuid)
  | markRead (id userId : Uuid)
  | deleteOne (id userId : Uuid)

/-- Whose inbox a call is about. -/
def InboxCall.owner : InboxCall → Uuid
  | .create dto => dto.userId
  | .findAll userId _ | .countUnread userId | .markAllRead userId | .markRead _ userId
  | .deleteOne _ userId => userId

inductive InboxResponse where
  | notification (row : NotificationRow)
  | notifications (rows : List NotificationRow)
  | count (count : Nat)
  | updated (updated : Nat)
  | done

namespace Inbox
open NotificationsService

def handle : InboxCall → InboxRequest InboxResponse
  | .create dto => .notification <$> create dto
  | .findAll userId unreadOnly => .notifications <$> findAll userId (unreadOnly = some "true")
  | .countUnread userId => .count <$> countUnread userId
  | .markAllRead userId => .updated <$> markAllRead userId
  | .markRead id userId => .notification <$> markRead id userId
  | .deleteOne id userId => (fun _ => .done) <$> deleteOne id userId

end Inbox

/-! ### The table -/

abbrev InboxTable := Table fun row : NotificationRow => row.id

namespace NotificationRow

def made (id : Uuid) (createdAt : Nat) (data : Notification) : NotificationRow :=
  { data with id, read := false, createdAt }

/-- `data: { read: true }` -/
def seen (row : NotificationRow) : NotificationRow := { row with read := true }

theorem seen_id (row : NotificationRow) : row.seen.id = row.id := rfl

def isOf (userId : Uuid) (row : NotificationRow) : Bool := row.userId = userId

def unreadOf (userId : Uuid) (row : NotificationRow) : Bool := row.isOf userId && !row.read

end NotificationRow

namespace Inbox

/-- `where: { userId, read? }` -/
def listed (userId : Uuid) (unreadOnly : Bool) (row : NotificationRow) : Bool :=
  row.isOf userId && (!unreadOnly || !row.read)

/-- The answers of the database. An id is drawn for one user, whether its row is still there or
not; an operation may also fail, if faults are switched on. -/
inductive Serves (drawnFor : Uuid → Uuid) (faults : Prop) (rows : InboxTable) :
    (op : InboxOp) → Except Failure op.Answer → InboxTable → Prop where
  | created {data : Notification} {id : Uuid} {rows' : InboxTable} (createdAt : Nat)
      (drawn : drawnFor id = data.userId) (inserted : rows.insert (NotificationRow.made id createdAt data) = some rows') :
      Serves drawnFor faults rows (.create data) (.ok (.made id createdAt data)) rows'
  | found {userId : Uuid} {unreadOnly : Bool} {order : List NotificationRow}
      (arranged : Paging.Arranges NotificationRow.createdAt (rows.select (listed userId unreadOnly)) order) :
      Serves drawnFor faults rows (.findMany userId unreadOnly) (.ok (order.take 100)) rows
  | counted (userId : Uuid) :
      Serves drawnFor faults rows (.count userId) (.ok (rows.rows.countP (NotificationRow.unreadOf userId))) rows
  | looked (id : Uuid) : Serves drawnFor faults rows (.findUnique id) (.ok (rows.find id)) rows
  | updated {id : Uuid} {row : NotificationRow} (stored : rows.find id = some row) :
      Serves drawnFor faults rows (.update id) (.ok row.seen) (rows.modify id NotificationRow.seen NotificationRow.seen_id)
  | updatedNone {id : Uuid} (message : String) (absent : rows.find id = none) :
      Serves drawnFor faults rows (.update id) (.error (.internal message)) rows
  | updatedMany (userId : Uuid) :
      Serves drawnFor faults rows (.updateMany userId) (.ok (rows.rows.countP (NotificationRow.unreadOf userId)))
        (rows.updateMany (NotificationRow.unreadOf userId) NotificationRow.seen NotificationRow.seen_id)
  | deleted {id : Uuid} {row : NotificationRow} (stored : rows.find id = some row) :
      Serves drawnFor faults rows (.delete id) (.ok row) (rows.remove id)
  | deletedNone {id : Uuid} (message : String) (absent : rows.find id = none) :
      Serves drawnFor faults rows (.delete id) (.error (.internal message)) rows
  | faulted {op : InboxOp} (fault : faults) (message : String) :
      Serves drawnFor faults rows op (.error (.internal message)) rows

/-- The calls in flight, and the table they share. -/
abbrev Service := Process.Pool InboxTable InboxCall Failure InboxOp InboxOp.Answer InboxResponse

abbrev Occurrence := Process.Event InboxCall Failure InboxOp InboxOp.Answer

def Service.Step (drawnFor : Uuid → Uuid) (faults : Prop) : Service → Occurrence → Service → Prop :=
  Process.Pool.Step handle (fun _ => Serves drawnFor faults) fun _ _ => False

/-! ### Whose rows a call touches -/

section Owners
variable {drawnFor : Uuid → Uuid} {faults : Prop} {rows rows' : InboxTable} {u u' : Uuid} {op : InboxOp}
  {answer : Except Failure op.Answer}

/-- Every row is that of the user its id was drawn for. -/
def Drawn (drawnFor : Uuid → Uuid) (rows : InboxTable) : Prop := ∀ row ∈ rows.rows, row.userId = drawnFor row.id

/-- A row that is found is the one asked for. -/
def Truthful (drawnFor : Uuid → Uuid) : (op : InboxOp) → Except Failure op.Answer → Prop
  | .findUnique id, .ok (some row) => row.id = id ∧ row.userId = drawnFor id
  | _, _ => True

/-- What a call for the inbox of a user may do. -/
def May (drawnFor : Uuid → Uuid) (u : Uuid) : InboxOp → Prop
  | .create data => data.userId = u
  | .findMany userId _ | .count userId | .updateMany userId => userId = u
  | .findUnique _ => True
  | .update id | .delete id => drawnFor id = u

/-- A row of somebody else, and none. -/
def Alike (u : Uuid) : (op : InboxOp) → Except Failure op.Answer → Except Failure op.Answer → Prop
  | .findUnique _, .ok (some row), .ok none => row.userId ≠ u
  | _, _, _ => False

def view (u : Uuid) (rows : InboxTable) : InboxTable := rows.keep (NotificationRow.isOf u)

theorem owned_relies {α : Type} {rest : Unit → InboxRequest α} (id : Uuid)
    (goes : drawnFor id = u → (rest ()).Relies (Truthful drawnFor) (May drawnFor u) fun _ => True) :
    (NotificationsService.owned id u >>= rest).Relies (Truthful drawnFor) (May drawnFor u) fun _ => True := by
  have reads : (NotificationsService.owned id u).Relies (Truthful drawnFor) (May drawnFor u) fun _ => drawnFor id = u := by
    refine Process.relies_perform trivial fun notification told => ?_
    cases notification with
    | none => trivial
    | some row =>
      obtain ⟨_, drawn⟩ := told
      dsimp only [Option.all_some, Process.throwIf]
      split
      · trivial
      · rename_i own
        exact drawn.symm.trans (by simpa using own)
  exact Process.relies_bind reads fun _ own => goes own

theorem handle_relies (call : InboxCall) :
    (handle call).Relies (Truthful drawnFor) (May drawnFor call.owner) fun _ => True := by
  cases call with
  | create dto => exact Process.relies_map (Process.relies_last rfl fun _ _ => trivial)
  | findAll userId unreadOnly => exact Process.relies_map (Process.relies_last rfl fun _ _ => trivial)
  | countUnread userId => exact Process.relies_map (Process.relies_last rfl fun _ _ => trivial)
  | markAllRead userId => exact Process.relies_map (Process.relies_last rfl fun _ _ => trivial)
  | markRead id userId =>
    refine Process.relies_map (owned_relies id fun own => ?_)
    exact Process.relies_last own fun _ _ => trivial
  | deleteOne id userId =>
    refine Process.relies_map (owned_relies id fun own => ?_)
    exact Process.relies_perform own fun _ _ => trivial

theorem alike_found {id : Uuid} {a b : Except Failure (Option NotificationRow)}
    (alike : Alike u (.findUnique id) a b) : ∃ row, a = .ok (some row) ∧ b = .ok none ∧ row.userId ≠ u := by
  rcases a with _ | _ | row
  · exact alike.elim
  · exact alike.elim
  · rcases b with _ | _ | _
    · exact alike.elim
    · exact ⟨row, rfl, rfl, alike⟩
    · exact alike.elim

theorem owned_blind {α : Type} {rest : Unit → InboxRequest α} (id : Uuid) (goes : (rest ()).Blind (Alike u)) :
    (NotificationsService.owned id u >>= rest).Blind (Alike u) := by
  refine Process.blind_bind ⟨fun a b alike => ?_, fun answer => ?_⟩ fun _ => goes
  · obtain ⟨row, rfl, rfl, foreign⟩ := alike_found alike
    exact if_pos (by simpa using foreign)
  · cases answer with
    | error => trivial
    | ok notification =>
      change (Process.throwIf _ _).Blind _
      unfold Process.throwIf
      split <;> trivial

theorem handle_blind (call : InboxCall) : (handle call).Blind (Alike call.owner) := by
  cases call with
  | create dto => exact Process.blind_map (Process.blind_perform fun _ _ => nofun)
  | findAll userId unreadOnly => exact Process.blind_map (Process.blind_perform fun _ _ => nofun)
  | countUnread userId => exact Process.blind_map (Process.blind_perform fun _ _ => nofun)
  | markAllRead userId => exact Process.blind_map (Process.blind_perform fun _ _ => nofun)
  | markRead id userId =>
    refine Process.blind_map (owned_blind id ?_)
    exact Process.blind_perform fun _ _ => nofun
  | deleteOne id userId =>
    refine Process.blind_map (owned_blind id ?_)
    exact Process.blind_bind (Process.blind_perform fun _ _ => nofun) fun _ => trivial

theorem serves_truthful (drawn : Drawn drawnFor rows) (served : Serves drawnFor faults rows op answer rows') :
    Truthful drawnFor op answer := by
  cases served with
  | looked id =>
    cases found : rows.find id with
    | none => trivial
    | some row =>
      have same := Table.key_of_find found
      exact ⟨same, same ▸ drawn row (Table.mem_of_find found)⟩
  | faulted => cases op <;> trivial
  | _ => trivial

theorem serves_drawn (drawn : Drawn drawnFor rows) (served : Serves drawnFor faults rows op answer rows') :
    Drawn drawnFor rows' := by
  cases served with
  | created createdAt own inserted =>
    intro row member
    rw [(Table.insert_some inserted).2] at member
    rcases List.mem_append.mp member with earlier | new
    · exact drawn row earlier
    · obtain rfl := List.mem_singleton.mp new
      exact own.symm
  | updated stored =>
    intro row member
    obtain ⟨before, there, rfl⟩ := List.mem_map.mp member
    split
    · exact drawn before there
    · exact drawn before there
  | updatedMany userId =>
    intro row member
    obtain ⟨before, there, rfl⟩ := List.mem_map.mp member
    split
    · exact drawn before there
    · exact drawn before there
  | deleted stored => exact fun row member => drawn row (List.mem_filter.mp member).1
  | _ => exact drawn

/-- The row under an id drawn for another user is not the user's. -/
theorem Drawn.foreign {id : Uuid} {row : NotificationRow} (drawn : Drawn drawnFor rows) (other : drawnFor id ≠ u)
    (found : rows.find id = some row) : row.isOf u = false := by
  have same := drawn row (Table.mem_of_find found)
  rw [Table.key_of_find found] at same
  simp [NotificationRow.isOf, same, other]

theorem Drawn.unseen {id : Uuid} (drawn : Drawn drawnFor rows) (other : drawnFor id ≠ u) :
    (view u rows).find id = none := by
  rw [view, Table.find_keep]
  cases found : rows.find id with
  | none => rfl
  | some row => exact Option.filter_some_neg (by simp [drawn.foreign other found])

theorem Drawn.own {id : Uuid} {row : NotificationRow} (drawn : Drawn drawnFor rows) (own : drawnFor id = u)
    (found : rows.find id = some row) : (view u rows).find id = some row := by
  have same := drawn row (Table.mem_of_find found)
  rw [Table.key_of_find found, own] at same
  rw [view, Table.find_keep, found]
  exact Option.filter_some_pos (by simp [NotificationRow.isOf, same])

theorem view_unseen {id : Uuid} (absent : rows.find id = none) : (view u rows).find id = none := by
  rw [view, Table.find_keep, absent, Option.filter_none]

theorem view_updated (id : Uuid) : view u (rows.modify id NotificationRow.seen NotificationRow.seen_id) =
    (view u rows).modify id NotificationRow.seen NotificationRow.seen_id :=
  Table.keep_modify NotificationRow.seen_id fun _ => rfl

theorem view_updatedMany (userId : Uuid) :
    view u (rows.updateMany (NotificationRow.unreadOf userId) NotificationRow.seen NotificationRow.seen_id) =
      (view u rows).updateMany (NotificationRow.unreadOf userId) NotificationRow.seen NotificationRow.seen_id :=
  Table.keep_updateMany NotificationRow.seen_id fun _ => rfl

theorem view_deleted (id : Uuid) : view u (rows.remove id) = (view u rows).remove id := Table.keep_remove

/-- Nobody's rows change but those of the user a call is for. -/
theorem serves_apart (drawn : Drawn drawnFor rows) (may : May drawnFor u op) (other : u ≠ u')
    (served : Serves drawnFor faults rows op answer rows') : view u' rows' = view u' rows := by
  cases served with
  | @created data id rows' createdAt own inserted =>
    have kept := Table.keep_insert (p := NotificationRow.isOf u') inserted
    rw [if_neg] at kept
    · exact kept
    · have same : data.userId = u := may
      simp [NotificationRow.isOf, NotificationRow.made, same, other]
  | @updated id row stored =>
    rw [view_updated]
    exact Table.modify_absent _ (drawn.unseen (u := u') (ne_of_eq_of_ne may other))
  | updatedMany userId =>
    obtain rfl : userId = u := may
    rw [view_updatedMany]
    refine Table.updateMany_none _ fun row member => ?_
    have own : row.userId = u' := by simpa [NotificationRow.isOf] using (List.mem_filter.mp member).2
    simp [NotificationRow.unreadOf, NotificationRow.isOf, own, Ne.symm other]
  | @deleted id row stored =>
    exact Table.keep_remove_other fun row found => drawn.foreign (ne_of_eq_of_ne may other) found
  | _ => rfl

theorem unread_view : (view u rows).rows.countP (NotificationRow.unreadOf u) =
    rows.rows.countP (NotificationRow.unreadOf u) := by
  unfold view Table.keep
  rw [List.countP_filter]
  refine List.countP_congr fun row _ => ?_
  simp only [NotificationRow.unreadOf, Bool.and_eq_true, and_iff_left_iff_imp, and_imp]
  exact fun own _ => own

/-- What a call is answered depends on the rows of its user alone. -/
theorem serves_own (drawn : Drawn drawnFor rows) (may : May drawnFor u op)
    (served : Serves drawnFor faults rows op answer rows') :
    ∃ seen, Serves drawnFor faults (view u rows) op seen (view u rows') ∧ (seen = answer ∨ Alike u op answer seen) := by
  cases served with
  | @created data id rows' createdAt own inserted =>
    have kept := Table.keep_insert (p := NotificationRow.isOf u) inserted
    rw [if_pos] at kept
    · exact ⟨_, .created createdAt own kept, .inl rfl⟩
    · have same : data.userId = u := may
      simp [NotificationRow.isOf, NotificationRow.made, same]
  | @found userId unreadOnly order arranged =>
    obtain rfl : userId = u := may
    refine ⟨_, .found ?_, .inl rfl⟩
    rw [view, Table.select_keep, List.filter_eq_self.mpr]
    · exact arranged
    · intro row member
      have kept := (Table.mem_select.mp member).2
      exact (Bool.and_eq_true_iff.mp kept).1
  | counted userId =>
    obtain rfl : userId = u := may
    refine ⟨_, .counted userId, .inl ?_⟩
    rw [unread_view]
  | looked id =>
    refine ⟨_, .looked id, ?_⟩
    rw [view, Table.find_keep]
    cases rows.find id with
    | none => exact .inl rfl
    | some row =>
      cases own : row.isOf u with
      | true => exact .inl (congrArg _ (Option.filter_some_pos own))
      | false =>
        rw [Option.filter_some_neg (by simp [own])]
        exact .inr (by simpa [Alike, NotificationRow.isOf] using own)
  | @updated id row stored =>
    rw [view_updated]
    exact ⟨_, .updated (drawn.own may stored), .inl rfl⟩
  | updatedNone message absent => exact ⟨_, .updatedNone message (view_unseen absent), .inl rfl⟩
  | updatedMany userId =>
    obtain rfl : userId = u := may
    rw [view_updatedMany]
    refine ⟨_, .updatedMany userId, .inl ?_⟩
    rw [unread_view]
  | @deleted id row stored =>
    rw [view_deleted]
    exact ⟨_, .deleted (drawn.own may stored), .inl rfl⟩
  | deletedNone message absent => exact ⟨_, .deletedNone message (view_unseen absent), .inl rfl⟩
  | faulted fault message => exact ⟨_, .faulted fault message, .inl rfl⟩

theorem inbox_confined : Process.Confined handle (Serves drawnFor faults) InboxCall.owner view Alike
    (Drawn drawnFor) (Truthful drawnFor) (May drawnFor) where
  relies := handle_relies
  blind := handle_blind
  truthful := serves_truthful
  keeps drawn _ served := serves_drawn drawn served
  apart := serves_apart
  own := serves_own

end Owners

/-! ### The badge -/

def unread (u : Uuid) (rows : InboxTable) : Nat := rows.rows.countP (NotificationRow.unreadOf u)

namespace Occurrence

/-- Notifications of a user that were put in. -/
def arrived (u : Uuid) : Occurrence → Nat
  | .served _ (.create data) (.ok _) => if data.userId = u then 1 else 0
  | _ => 0

/-- `{ updated: result.count }` -/
def reported (u : Uuid) : Occurrence → Nat
  | .served _ (.updateMany userId) (.ok updated) => if userId = u then updated else 0
  | _ => 0

/-- An unread notification of a user was marked by itself, or deleted. -/
def settled (u : Uuid) (rows : InboxTable) : Occurrence → Nat
  | .served _ (.update id) (.ok _) | .served _ (.delete id) (.ok _) =>
      if (rows.find id).any (NotificationRow.unreadOf u) then 1 else 0
  | _ => 0

end Occurrence

section Badge
variable {drawnFor : Uuid → Uuid} {faults : Prop} {rows rows' : InboxTable} {u : Uuid}

theorem unreadOf_seen (row : NotificationRow) : row.seen.unreadOf u = false := by
  simp [NotificationRow.unreadOf, NotificationRow.seen]

theorem unread_updatedMany (userId : Uuid) :
    unread u (rows.updateMany (NotificationRow.unreadOf userId) NotificationRow.seen NotificationRow.seen_id) =
      if userId = u then 0 else unread u rows := by
  rw [unread, Table.countP_updateMany]
  split
  · rename_i same
    subst same
    refine List.countP_eq_zero.mpr fun row _ => ?_
    cases new : row.unreadOf userId <;> simp [new, unreadOf_seen]
  · rename_i other
    refine List.countP_congr fun row _ => ?_
    cases new : row.unreadOf userId with
    | false => simp
    | true =>
      have own : row.userId = userId := by
        simp only [NotificationRow.unreadOf, NotificationRow.isOf, Bool.and_eq_true, decide_eq_true_eq] at new
        exact new.1
      have left : row.seen.userId = userId := own
      simp [NotificationRow.unreadOf, NotificationRow.isOf, own, left, other]

theorem unread_created {id : Uuid} {createdAt : Nat} {data : Notification}
    (inserted : rows.insert (NotificationRow.made id createdAt data) = some rows') :
    unread u rows' = unread u rows + if data.userId = u then 1 else 0 := by
  rw [unread, (Table.insert_some inserted).2, List.countP_append]
  simp [unread, NotificationRow.unreadOf, NotificationRow.isOf, NotificationRow.made]

/-- What one answer does to a badge. -/
theorem serves_badge (index : Nat) {op : InboxOp} {answer : Except Failure op.Answer}
    (served : Serves drawnFor faults rows op answer rows') :
    unread u rows + Occurrence.arrived u (.served index op answer) =
      unread u rows' + Occurrence.reported u (.served index op answer) +
        Occurrence.settled u rows (.served index op answer) := by
  cases served with
  | created createdAt own inserted =>
    rw [unread_created inserted]
    rfl
  | @updated id row stored =>
    have moved := Table.countP_modify NotificationRow.seen_id rows (NotificationRow.unreadOf u) id
    simp only [stored, Option.any_some, unreadOf_seen] at moved
    simpa [unread, Occurrence.arrived, Occurrence.reported, Occurrence.settled, stored] using moved.symm
  | updatedMany userId =>
    rw [unread_updatedMany]
    dsimp only [Occurrence.arrived, Occurrence.reported, Occurrence.settled]
    split
    · rename_i same
      subst same
      simp [unread]
    · simp
  | @deleted id row stored =>
    have moved := Table.countP_remove rows (NotificationRow.unreadOf u) id
    simpa [unread, Occurrence.arrived, Occurrence.reported, Occurrence.settled] using moved.symm
  | @faulted op fault message => cases op <;> simp [Occurrence.arrived, Occurrence.reported, Occurrence.settled]
  | _ => simp [Occurrence.arrived, Occurrence.reported, Occurrence.settled]

variable {start service next : Service} {occurrence : Occurrence} {trace rest : List (Service × Occurrence)}

theorem step_badge (step : Service.Step drawnFor faults service occurrence next) :
    unread u service.world + occurrence.arrived u =
      unread u next.world + occurrence.reported u + occurrence.settled u service.world := by
  cases step with
  | start request => rfl
  | served found answered => exact serves_badge _ answered
  | outside moved => exact moved.elim

theorem run_badge (run : Runs.Run (Service.Step drawnFor faults) start trace service) :
    unread u start.world + (trace.map fun point => point.2.arrived u).sum =
      unread u service.world + (trace.map fun point => point.2.reported u).sum +
        (trace.map fun point => point.2.settled u point.1.world).sum := by
  induction run with
  | refl => simp
  | tail run step ih =>
    simp only [List.map_append, List.map_cons, List.map_nil, List.sum_append, List.sum_cons, List.sum_nil]
    have moved := step_badge (u := u) step
    omega

/-- Over any run of interleaved requests, what came into a user's badge is what is on it, what was
reported when all was marked read, and what was marked or deleted by itself. A report tells all
that is on the badge, and after it the badge starts anew. -/
theorem badge_balance (u : Uuid) (run : Runs.Run (Service.Step drawnFor faults) start trace service) :
    unread u start.world + (trace.map fun point => point.2.arrived u).sum =
        unread u service.world + (trace.map fun point => point.2.reported u).sum +
          (trace.map fun point => point.2.settled u point.1.world).sum ∧
      ∀ before point rest index updated, trace = before ++ point :: rest →
        point.2 = .served index (.updateMany u) (.ok updated) →
        updated = unread u point.1.world ∧
          (rest.map fun point => point.2.arrived u).sum =
            unread u service.world + (rest.map fun point => point.2.reported u).sum +
              (rest.map fun point => point.2.settled u point.1.world).sum := by
  refine ⟨run_badge run, fun before point rest index updated cut marks => ?_⟩
  obtain ⟨-, next, step, later⟩ := run.cut cut
  have balance := run_badge (u := u) later
  generalize point.1 = here at step ⊢
  rw [marks] at step
  cases step with
  | served found answered =>
    cases answered with
    | updatedMany =>
      refine ⟨rfl, ?_⟩
      rw [unread_updatedMany, if_pos rfl, Nat.zero_add] at balance
      exact balance

/-- What a user sees of a run of everybody's requests, the answers included, is a run of the
user's own calls over the user's own rows: nothing that is done for or by others shows in it. -/
theorem others_do_not_show (u : Uuid) (run : Runs.Run (Service.Step drawnFor faults) start trace service)
    (idle : start.running = []) (drawn : Drawn drawnFor start.world) :
    ∃ trace', Runs.Run (Service.Step drawnFor faults) ⟨start.world.keep (NotificationRow.isOf u), []⟩ trace'
      ⟨service.world.keep (NotificationRow.isOf u), service.running.filter fun entry => entry.1.owner = u⟩ := by
  have kept : Process.Confined.Kept InboxCall.owner Alike (Drawn drawnFor) (Truthful drawnFor) (May drawnFor) start := by
    refine ⟨drawn, Process.Pool.relying_idle idle, ?_⟩
    rw [idle]
    exact fun entry member => absurd member List.not_mem_nil
  have seen := Process.Confined.run_part inbox_confined u run kept
  unfold Process.Confined.part at seen
  rw [idle, List.filter_nil] at seen
  exact seen

end Badge

/-! ### Two users -/

namespace Sample

def inboxRow (id userId : Uuid) : NotificationRow where
  userId := userId
  type := .milestoneSubmitted
  title := "Milestone submitted"
  body := "The first one"
  contractId := none
  milestoneId := none
  id := id
  read := false
  createdAt := 1000

def reader : Uuid := Backend.Sample.clientId
def other : Uuid := Backend.Sample.freelancerId

def firstId : Uuid := .repeated (Fin.last 15)
def secondId : Uuid := .repeated ⟨14, by decide⟩

/-- One unread notification of each. -/
def inbox : InboxTable := ⟨[inboxRow firstId reader, inboxRow secondId other], by decide⟩

def drawnFor (id : Uuid) : Uuid := if id = firstId then reader else other

def marked : InboxTable := inbox.updateMany (NotificationRow.unreadOf reader) NotificationRow.seen NotificationRow.seen_id

/-- The answer to the one operation of the run below. -/
def answer (rows : InboxTable) : (op : InboxOp) → Option (Except Failure op.Answer × InboxTable)
  | .updateMany userId =>
      some (.ok (unread userId rows),
        rows.updateMany (NotificationRow.unreadOf userId) NotificationRow.seen NotificationRow.seen_id)
  | _ => none

theorem answer_serves {rows rows' : InboxTable} {op : InboxOp} {given : Except Failure op.Answer}
    (answered : answer rows op = some (given, rows')) : Serves drawnFor False rows op given rows' := by
  cases op with
  | updateMany userId =>
    cases answered
    exact .updatedMany userId
  | _ => cases answered

/-- The reader marks all read. -/
theorem marked_run : Runs.Run (Service.Step drawnFor False) ⟨inbox, []⟩
    [(⟨inbox, []⟩, .start (.markAllRead reader)),
      (⟨inbox, [(.markAllRead reader, handle (.markAllRead reader))]⟩,
        .served 0 (.updateMany reader) (.ok (unread reader inbox)))]
    ⟨marked, [(.markAllRead reader, .done (.updated (unread reader inbox)))]⟩ :=
  Process.Pool.playAll_run (fun _ => Serves drawnFor False) answer_serves
    (rfl : Process.Pool.playAll handle (fun _ => answer) ⟨inbox, []⟩
      [.start (.markAllRead reader), .serve 0] = some (_, _))

end Sample

theorem badge_balance_sample : unread Sample.reader Sample.inbox = 1 ∧ unread Sample.reader Sample.marked = 0 ∧
    unread Sample.other Sample.marked = 1 := by
  have balance := (badge_balance Sample.reader Sample.marked_run).1
  have others := (badge_balance Sample.other Sample.marked_run).1
  refine ⟨by decide, ?_, ?_⟩
  · simpa [Occurrence.arrived, Occurrence.reported, Occurrence.settled] using balance
  · have one : unread Sample.other Sample.inbox = 1 := by decide
    have apart : Sample.reader ≠ Sample.other := by decide
    rw [one] at others
    simpa [Occurrence.arrived, Occurrence.reported, Occurrence.settled, apart] using others.symm

/-- The other user sees nothing of it. -/
theorem others_do_not_show_sample : ∃ trace', Runs.Run (Service.Step Sample.drawnFor False)
    ⟨Sample.inbox.keep (NotificationRow.isOf Sample.other), []⟩ trace'
    ⟨Sample.marked.keep (NotificationRow.isOf Sample.other), []⟩ := by
  have drawn : Drawn Sample.drawnFor Sample.inbox := by
    intro row member
    rcases List.mem_pair.mp member with rfl | rfl
    · rfl
    · rfl
  have seen := others_do_not_show Sample.other Sample.marked_run rfl drawn
  have apart : Sample.reader ≠ Sample.other := by decide
  simpa [InboxCall.owner, apart] using seen

end Inbox
end Stellance.Backend
