import EventLens.EventRecord
import EventLens.Pools

/-!
Event expiration and media retention: the actions of an organizer, the general
update of an event, and the two sweeps. Every statement on the event table,
every reading of the clock and every job queued is one operation, so that the
calls interleave statement by statement. Reading the clock and queueing a job
are the points at which time passes.
-/

namespace EventLens.Expiry

open Programs

inductive HttpError
  | notFound (text : String)
  | badRequest (text : String)
  | noResult
deriving DecidableEq, Repr

inductive ExpiryOp
  | now
  | getEventRetentionConfig
  | getById (id : EventId)
  | getBySlug (slug : String)
  | findNewlyExpired (now : Date)
  | findDueForPurge (now : Date)
  | setExpiryState (id : EventId) (values : ExpiryValues)
  | update (orgId : String) (id : EventId) (dto : UpdateEventDto)
  | queue (job : ExpiryJob)
deriving DecidableEq, Repr

/-- The answer of each operation; queueing answers with the job's timestamp. -/
abbrev ExpiryRes : ExpiryOp → Type
  | .now | .queue _ => Date
  | .getEventRetentionConfig => ℕ
  | .getById _ | .getBySlug _ | .setExpiryState _ _ | .update _ _ _ => Option EventRow
  | .findNewlyExpired _ | .findDueForPurge _ => List EventRow

abbrev ExpiryProg := Prog ExpiryOp ExpiryRes
abbrev ExpiryEvent := Event ExpiryOp ExpiryRes

/-- A call that may throw. -/
abbrev Attempt := ExceptT HttpError ExpiryProg

/-- The effect of each operation, under a grace period in hours. -/
def expiryHandler (purgeGraceHours : ℕ) : Handler ExpiryOp ExpiryRes EventStore
  | .now, t, s => ((s.tick t).clock, s.tick t)
  | .getEventRetentionConfig, _, s => (purgeGraceHours, s)
  | .getById id, _, s => (s.getById id, s)
  | .getBySlug slug, _, s => (s.getBySlug slug, s)
  | .findNewlyExpired now, _, s => (s.findNewlyExpired now, s)
  | .findDueForPurge now, _, s => (s.findDueForPurge now, s)
  | .setExpiryState id values, _, s =>
    ((s.setExpiryState id values).row id, s.setExpiryState id values)
  | .update orgId id dto, _, s =>
    (((s.update orgId id dto).row id).filter (fun event => event.orgId = orgId),
      s.update orgId id dto)
  | .queue job, t, s => ((s.tick t).clock, (s.tick t).addJob job)

/-! Single operations under the source's names. -/

abbrev now : Attempt Date := .mk (.perform .now fun t => .done (.ok t))
abbrev getEventRetentionConfig : Attempt ℕ :=
  .mk (.perform .getEventRetentionConfig fun hours => .done (.ok hours))
abbrev getById (id : EventId) : Attempt (Option EventRow) :=
  .mk (.perform (.getById id) fun event => .done (.ok event))
abbrev getBySlug (slug : String) : Attempt (Option EventRow) :=
  .mk (.perform (.getBySlug slug) fun event => .done (.ok event))
abbrev findNewlyExpired (now : Date) : Attempt (List EventRow) :=
  .mk (.perform (.findNewlyExpired now) fun events => .done (.ok events))
abbrev findDueForPurge (now : Date) : Attempt (List EventRow) :=
  .mk (.perform (.findDueForPurge now) fun events => .done (.ok events))
abbrev queue (job : ExpiryJob) : Attempt Unit :=
  .mk (.perform (.queue job) fun _ => .done (.ok ()))

/-- `executeTakeFirstOrThrow`. -/
def orThrow : Option EventRow → ExpiryProg (Except HttpError EventRow)
  | some event => .done (.ok event)
  | none => .done (.error .noResult)

abbrev setExpiryState (id : EventId) (values : ExpiryValues) : Attempt EventRow :=
  .mk (.perform (.setExpiryState id values) orThrow)
abbrev updateEvent (orgId : String) (id : EventId) (dto : UpdateEventDto) : Attempt EventRow :=
  .mk (.perform (.update orgId id dto) orThrow)

/-! The expiry service. -/

def getEvent (orgId : String) (eventId : EventId) : Attempt EventRow := do
  match ← getById eventId with
  | none => throw (.notFound "Event not found")
  | some event =>
    if event.deletedAt ≠ none ∨ event.orgId ≠ orgId then throw (.notFound "Event not found")
    else pure event

/-- A new expiry has to lie ahead; none is always accepted. -/
def requireFuture : Option Date → Attempt Unit
  | none => pure ()
  | some expiresAt => do
    let t ← now
    if expiresAt ≤ t then throw (.badRequest "New expiry must be in the future") else pure ()

def extended (expiresAt : Option Date) : ExpiryValues :=
  { expiresAt := some expiresAt
    expiryNotifiedAt := some none
    expiryAcknowledgedAt := some none
    purgeAfter := some none }

def extend (orgId : String) (eventId : EventId) (expiresAt : Option Date) : Attempt EventRow := do
  let event ← getEvent orgId eventId
  if isEventPurged event then
    throw (.badRequest "This event’s media has already been deleted and cannot be extended")
  else do
    requireFuture expiresAt
    setExpiryState eventId (extended expiresAt)

def acknowledge (orgId : String) (eventId : EventId) : Attempt EventRow := do
  let event ← getEvent orgId eventId
  let t ← now
  if isEventExpired event t then do
    let acknowledgedAt ← now
    setExpiryState eventId { expiryAcknowledgedAt := some (some acknowledgedAt) }
  else throw (.badRequest "This event has not expired yet")

def purge (event : EventRow) : Attempt Unit := queue (.cleanupPrefix ⟨event.orgId, event.id⟩)

def purged (purgedAt : Date) : ExpiryValues :=
  { purgedAt := some (some purgedAt), purgeAfter := some none }

def purgeNow (orgId : String) (eventId : EventId) : Attempt EventRow := do
  let event ← getEvent orgId eventId
  let t ← now
  if isEventExpired event t then
    if isEventPurged event then pure event
    else do
      purge event
      let purgedAt ← now
      setExpiryState eventId (purged purgedAt)
  else throw (.badRequest "Set an expiry date in the past before deleting the media")

def notified (now : Date) (purgeGraceHours : ℕ) (event : EventRow) : ExpiryValues :=
  { expiryNotifiedAt := some (some now)
    purgeAfter := some (some (purgeDeadline (event.expiresAt.getD 0) purgeGraceHours)) }

/-- The loop of the expiry sweep. -/
def notifyAll (now : Date) (purgeGraceHours : ℕ) : List EventRow → Attempt Unit
  | [] => pure ()
  | event :: events => do
    let _ ← setExpiryState event.id (notified now purgeGraceHours event)
    queue (.sendEventExpiry event.id)
    notifyAll now purgeGraceHours events

def handleEventExpirySweep : Attempt Unit := do
  let t ← now
  let purgeGraceHours ← getEventRetentionConfig
  let events ← findNewlyExpired t
  notifyAll t purgeGraceHours events

/-- The re-read event is still to be purged. -/
def stillDue (current : EventRow) (now : Date) : Prop :=
  current.purgedAt = none ∧ isEventExpired current now

instance (current : EventRow) (now : Date) : Decidable (stillDue current now) :=
  inferInstanceAs (Decidable (_ ∧ _))

/-- The loop of the purge sweep. -/
def purgeAll (now : Date) : List EventRow → Attempt Unit
  | [] => pure ()
  | event :: events => do
    match ← getById event.id with
    | none => purgeAll now events
    | some current =>
      if stillDue current now then do
        purge current
        let _ ← setExpiryState current.id (purged now)
        purgeAll now events
      else purgeAll now events

def handleEventPurgeSweep : Attempt Unit := do
  let t ← now
  let events ← findDueForPurge t
  purgeAll t events

/-! The general update. -/

def get (orgId : String) (eventId : EventId) : Attempt EventRow := do
  match ← getById eventId with
  | none => throw (.notFound "Event not found")
  | some event =>
    if event.orgId ≠ orgId then throw (.notFound "Event not found") else pure event

/-- A slug that changes is not that of another event. -/
def requireSlug (event : EventRow) : Option String → Attempt Unit
  | none => pure ()
  | some slug =>
    if slug = "" ∨ slug = event.slug then pure ()
    else do
      match ← getBySlug slug with
      | none => pure ()
      | some existing =>
        if existing.id ≠ event.id then throw (.badRequest "Slug already in use") else pure ()

def update (orgId : String) (eventId : EventId) (dto : UpdateEventDto) : Attempt EventRow := do
  let event ← get orgId eventId
  requireSlug event dto.slug
  updateEvent orgId eventId dto

inductive ExpiryCall
  | extend (orgId : String) (eventId : EventId) (expiresAt : Option Date)
  | acknowledge (orgId : String) (eventId : EventId)
  | purgeNow (orgId : String) (eventId : EventId)
  | update (orgId : String) (eventId : EventId) (dto : UpdateEventDto)
  | eventExpirySweep
  | eventPurgeSweep
deriving DecidableEq, Repr

/-- What a call answers: the event row of a request, nothing for a sweep. -/
abbrev Answer := Except HttpError (Option EventRow)

def ExpiryCall.prog : ExpiryCall → ExpiryProg Answer
  | .extend orgId eventId expiresAt => (some <$> Expiry.extend orgId eventId expiresAt).run
  | .acknowledge orgId eventId => (some <$> Expiry.acknowledge orgId eventId).run
  | .purgeNow orgId eventId => (some <$> Expiry.purgeNow orgId eventId).run
  | .update orgId eventId dto => (some <$> Expiry.update orgId eventId dto).run
  | .eventExpirySweep => ((fun _ => none) <$> handleEventExpirySweep).run
  | .eventPurgeSweep => ((fun _ => none) <$> handleEventPurgeSweep).run

/-- Requests and sweeps side by side; any call may start at any time. -/
def expiryServer (purgeGraceHours : ℕ) :
    Server ExpiryCall ExpiryOp ExpiryRes EventStore Answer where
  handler := expiryHandler purgeGraceHours
  prog := ExpiryCall.prog
  accept _ s := some s
  release _ _ _ s := some s

abbrev ExpiryThread := Thread ExpiryCall ExpiryOp ExpiryRes Answer
abbrev ExpiryPool := Pool ExpiryCall ExpiryOp ExpiryRes EventStore Answer
abbrev ExpiryMove := Move ExpiryCall ExpiryOp ExpiryRes

end EventLens.Expiry
