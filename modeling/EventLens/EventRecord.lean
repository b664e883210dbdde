import EventLens.Rows
import Mathlib.Data.List.Sort
import Mathlib.Order.Defs.LinearOrder

/-!
The event row, as far as expiration and retention read it, and the queries of
the event repository on it. Instants are milliseconds. The ids the database
generates are numbers; a storage prefix is kept as the ids it is built from.
-/

namespace EventLens.Expiry

abbrev Date := ℤ
abbrev EventId := ℕ

structure EventRow where
  id : EventId
  orgId : String
  slug : String
  expiresAt : Option Date := none
  expiryNotifiedAt : Option Date := none
  expiryAcknowledgedAt : Option Date := none
  purgeAfter : Option Date := none
  purgedAt : Option Date := none
  deletedAt : Option Date := none
deriving DecidableEq, Repr

def isEventExpired (event : EventRow) (now : Date) : Prop :=
  ∃ expiresAt, event.expiresAt = some expiresAt ∧ expiresAt ≤ now

instance (event : EventRow) (now : Date) : Decidable (isEventExpired event now) :=
  match h : event.expiresAt with
  | some expiresAt => decidable_of_iff (expiresAt ≤ now) (by simp [isEventExpired, h])
  | none => isFalse (by simp [isEventExpired, h])

def isEventPurged (event : EventRow) : Prop := event.purgedAt ≠ none

instance (event : EventRow) : Decidable (isEventPurged event) :=
  inferInstanceAs (Decidable (event.purgedAt ≠ none))

def purgeDeadline (expiresAt : Date) (graceHours : ℕ) : Date :=
  expiresAt + graceHours * 60 * 60 * 1000

/-- The columns `setExpiryState` writes: a column that is left out keeps its
value, and a value may be null. -/
structure ExpiryValues where
  expiresAt : Option (Option Date) := none
  expiryNotifiedAt : Option (Option Date) := none
  expiryAcknowledgedAt : Option (Option Date) := none
  purgeAfter : Option (Option Date) := none
  purgedAt : Option (Option Date) := none
deriving DecidableEq, Repr

def ExpiryValues.apply (values : ExpiryValues) (event : EventRow) : EventRow :=
  { event with
    expiresAt := values.expiresAt.getD event.expiresAt
    expiryNotifiedAt := values.expiryNotifiedAt.getD event.expiryNotifiedAt
    expiryAcknowledgedAt := values.expiryAcknowledgedAt.getD event.expiryAcknowledgedAt
    purgeAfter := values.purgeAfter.getD event.purgeAfter
    purgedAt := values.purgedAt.getD event.purgedAt }

/-- The columns of the general update that the slug check and the expiration
read. -/
structure UpdateEventDto where
  slug : Option String := none
  expiresAt : Option (Option Date) := none
deriving DecidableEq, Repr

def UpdateEventDto.apply (dto : UpdateEventDto) (event : EventRow) : EventRow :=
  { event with
    slug := dto.slug.getD event.slug
    expiresAt := dto.expiresAt.getD event.expiresAt }

/-- `StorageKeys.eventPrefix`. -/
structure EventPrefix where
  orgId : String
  eventId : EventId
deriving DecidableEq, Repr

inductive ExpiryJob
  | cleanupPrefix (objects : EventPrefix)
  | sendEventExpiry (eventId : EventId)
deriving DecidableEq, Repr

/-- A job with the time at which it was queued. -/
structure QueuedJob where
  job : ExpiryJob
  timestamp : Date
deriving DecidableEq, Repr

/-- The event table, the clock and the jobs queued so far. -/
structure EventStore where
  rows : List EventRow := []
  clock : Date := 0
  jobs : List QueuedJob := []
deriving DecidableEq, Repr

namespace EventStore

def row (s : EventStore) (id : EventId) : Option EventRow := findRow EventRow.id id s.rows

def getById (s : EventStore) (id : EventId) : Option EventRow :=
  (s.row id).filter (fun event => event.deletedAt = none)

def getBySlug (s : EventStore) (slug : String) : Option EventRow :=
  s.rows.find? (fun event => event.slug = slug ∧ event.deletedAt = none)

def newlyExpired (now : Date) (event : EventRow) : Bool :=
  event.expiresAt.any (fun expiresAt => expiresAt ≤ now) && event.expiryNotifiedAt.isNone &&
    event.deletedAt.isNone

def findNewlyExpired (s : EventStore) (now : Date) : List EventRow :=
  ((s.rows.filter (newlyExpired now)).insertionSort
    (fun a b => a.expiresAt.getD 0 ≤ b.expiresAt.getD 0)).take 100

def dueForPurge (now : Date) (event : EventRow) : Bool :=
  event.purgeAfter.any (fun purgeAfter => purgeAfter ≤ now) && event.purgedAt.isNone &&
    event.deletedAt.isNone && event.expiresAt.all (fun expiresAt => expiresAt ≤ now)

def findDueForPurge (s : EventStore) (now : Date) : List EventRow :=
  ((s.rows.filter (dueForPurge now)).insertionSort
    (fun a b => a.purgeAfter.getD 0 ≤ b.purgeAfter.getD 0)).take 100

def setExpiryState (s : EventStore) (id : EventId) (values : ExpiryValues) : EventStore :=
  { s with rows := updateRow EventRow.id id values.apply s.rows }

/-- The general update, scoped to the organisation. -/
def update (s : EventStore) (orgId : String) (id : EventId) (dto : UpdateEventDto) : EventStore :=
  { s with
    rows := updateRow EventRow.id id
      (fun event => if event.orgId = orgId then dto.apply event else event) s.rows }

/-- The clock never goes back. -/
def tick (s : EventStore) (now : Date) : EventStore := { s with clock := max s.clock now }

def addJob (s : EventStore) (job : ExpiryJob) : EventStore :=
  { s with jobs := s.jobs ++ [⟨job, s.clock⟩] }

variable {s : EventStore} {id : EventId} {now : Date} {event : EventRow}

theorem of_getById (h : s.getById id = some event) :
    event ∈ s.rows ∧ event.id = id ∧ event.deletedAt = none := by
  obtain ⟨hrow, hlive⟩ := Option.filter_eq_some_iff.mp h
  obtain ⟨hmem, hid⟩ := mem_of_findRow hrow
  exact ⟨hmem, hid, by simpa using hlive⟩

/-- What the query for newly expired events says of each event it returns. -/
theorem of_findNewlyExpired (h : event ∈ s.findNewlyExpired now) :
    event ∈ s.rows ∧ ∃ expiresAt, event.expiresAt = some expiresAt ∧ expiresAt ≤ now := by
  have hmem := (List.mem_insertionSort _).mp (List.mem_of_mem_take h)
  obtain ⟨hrow, hexpired⟩ := List.mem_filter.mp hmem
  simp only [newlyExpired, Bool.and_eq_true, Option.any_eq_true, decide_eq_true_eq] at hexpired
  exact ⟨hrow, hexpired.1.1⟩

/-- What the query for due events says of each event it returns. -/
theorem of_findDueForPurge (h : event ∈ s.findDueForPurge now) :
    event ∈ s.rows ∧ ∃ purgeAfter, event.purgeAfter = some purgeAfter ∧ purgeAfter ≤ now := by
  have hmem := (List.mem_insertionSort _).mp (List.mem_of_mem_take h)
  obtain ⟨hrow, hdue⟩ := List.mem_filter.mp hmem
  simp only [dueForPurge, Bool.and_eq_true, Option.any_eq_true, decide_eq_true_eq] at hdue
  exact ⟨hrow, hdue.1.1.1⟩

/-- The statements that write rows keep the ids. -/
theorem ids_setExpiryState (values : ExpiryValues) :
    (s.setExpiryState id values).rows.map EventRow.id = s.rows.map EventRow.id :=
  map_updateRow fun _ => rfl

theorem ids_update (orgId : String) (dto : UpdateEventDto) :
    (s.update orgId id dto).rows.map EventRow.id = s.rows.map EventRow.id := by
  refine map_updateRow fun event => ?_
  split <;> rfl

end EventStore

end EventLens.Expiry
