import EventLens.EventExpiry

/-!
The stages a call of the expiry service goes through: the part of its selection
a sweep has not dealt with, the notification or the mark it owes, the row a
request has read. Every call performs only what its stage permits.
-/

namespace EventLens.Expiry

open Programs Contract

inductive Stage
  | request
  | extending (id : EventId) (read : Option EventRow)
  | extended (id : EventId)
  | notifying (now : Option Date) (events : List EventRow)
  | informing (now : Date) (id : EventId) (events : List EventRow)
  | sweeping (now : Option Date) (events : List EventRow)
  | deleting (now : Date) (current : EventRow) (events : List EventRow)
  | ordering (id : EventId) (read : Option EventRow)
  | ordered (now : Date) (event : EventRow)
  | marking (now : Date) (id : EventId) (events : List EventRow)
  | over

def ExpiryCall.first : ExpiryCall → Stage
  | .extend _ id _ => .extending id none
  | .acknowledge _ _ | .update _ _ _ => .request
  | .purgeNow _ id => .ordering id none
  | .eventExpirySweep => .notifying none []
  | .eventPurgeSweep => .sweeping none []

/-- The stage after an event. -/
def Stage.note : Stage → ExpiryEvent → Stage
  | .extending id none, ⟨.getById _, r⟩ => .extending id r
  | .extending id (some _), ⟨.setExpiryState _ _, _⟩ => .extended id
  | .notifying none _, ⟨.now, t⟩ => .notifying (some t) []
  | .notifying (some t) _, ⟨.findNewlyExpired _, events⟩ => .notifying (some t) events
  | .notifying (some t) (event :: events), ⟨.setExpiryState _ _, r⟩ =>
    match (r : Option EventRow) with
    | some _ => .informing t event.id events
    | none => .over
  | .informing t _ events, ⟨.queue _, _⟩ => .notifying (some t) events
  | .sweeping none _, ⟨.now, t⟩ => .sweeping (some t) []
  | .sweeping (some t) _, ⟨.findDueForPurge _, events⟩ => .sweeping (some t) events
  | .sweeping (some t) (_ :: events), ⟨.getById _, r⟩ =>
    match (r : Option EventRow) with
    | some current =>
      if stillDue current t then .deleting t current events else .sweeping (some t) events
    | none => .sweeping (some t) events
  | .deleting t current events, ⟨.queue _, _⟩ => .marking t current.id events
  | .ordering id none, ⟨.getById _, r⟩ => .ordering id r
  | .ordering _ (some event), ⟨.now, t⟩ => if stillDue event t then .ordered t event else .over
  | .ordered t event, ⟨.queue _, _⟩ => .marking t event.id []
  | .marking t _ events, ⟨.setExpiryState _ _, _⟩ => .sweeping (some t) events
  | s, _ => s

/-- The operations a stage permits, under a grace period. -/
def Stage.Permits (purgeGraceHours : ℕ) : Stage → ExpiryOp → Prop
  | .request, .getById _ | .request, .getBySlug _ | .request, .now | .request, .update _ _ _ => True
  | .request, .setExpiryState _ values =>
    ∃ t, values = { expiryAcknowledgedAt := some (some t) }
  | .extending id none, .getById k => k = id
  | .extending _ (some _), .now => True
  | .extending id (some event), .setExpiryState k values =>
    k = id ∧ event.purgedAt = none ∧ ∃ expiresAt, values = Expiry.extended expiresAt
  | .notifying none _, .now => True
  | .notifying (some _) [], .getEventRetentionConfig => True
  | .notifying (some t) [], .findNewlyExpired now => now = t
  | .notifying (some t) (event :: _), .setExpiryState k values =>
    k = event.id ∧ values = notified t purgeGraceHours event
  | .informing _ id _, .queue job => job = .sendEventExpiry id
  | .sweeping none _, .now => True
  | .sweeping (some t) [], .findDueForPurge now => now = t
  | .sweeping (some _) (event :: _), .getById k => k = event.id
  | .deleting _ current _, .queue job => job = .cleanupPrefix ⟨current.orgId, current.id⟩
  | .ordering id none, .getById k => k = id
  | .ordering _ (some _), .now => True
  | .ordered _ event, .queue job => job = .cleanupPrefix ⟨event.orgId, event.id⟩
  | .marking _ _ _, .now => True
  | .marking _ id _, .setExpiryState k values => k = id ∧ ∃ t, values = purged t
  | _, _ => False

/-- What a call counts on: the grace period in force, and that a row it asked
for is that row. -/
def Expects (purgeGraceHours : ℕ) : ExpiryEvent → Prop
  | ⟨.getEventRetentionConfig, hours⟩ => hours = purgeGraceHours
  | ⟨.getById id, r⟩ => ∀ event, (r : Option EventRow) = some event → event.id = id
  | _ => True

def stages (purgeGraceHours : ℕ) : Contract ExpiryOp ExpiryRes Stage where
  note := Stage.note
  expects _ := Expects purgeGraceHours
  permits := Stage.Permits purgeGraceHours

/-- The call owes nothing. -/
def Stage.settled : Stage → Bool
  | .informing _ _ _ | .marking _ _ _ => false
  | _ => true

/-- A call that returned owes nothing, and an extension that succeeded has
been written. -/
def ExpiryCall.Post (c : ExpiryCall) (answer : Answer) (s : Stage) : Prop :=
  s.settled = true ∧ ∀ orgId id expiresAt event, c = .extend orgId id expiresAt →
    answer = .ok event → s = .extended id

theorem post_of_settled {c : ExpiryCall} {answer : Answer} {s : Stage}
    (hc : ∀ orgId id expiresAt, c ≠ .extend orgId id expiresAt) (hs : s.settled = true) :
    c.Post answer s :=
  ⟨hs, fun orgId id expiresAt _ h _ => absurd h (hc orgId id expiresAt)⟩

/-! Every call keeps to its stages. -/

section Follows

variable {hours : ℕ} {s : Stage}

theorem follows_map {α β : Type} {f : α → β} {p : Attempt α} {Q : Except HttpError β → Stage → Prop}
    (h : (stages hours).Follows p.run (fun r s => Q (r.map f) s) s) :
    (stages hours).Follows (f <$> p).run Q s := by
  refine (follows_bind _ _ _ _ _).mpr (follows_mono _ ?_ _ _ h)
  intro r s hr
  cases r <;> exact hr

theorem orThrow_follows {Q : Except HttpError EventRow → Stage → Prop} (r : Option EventRow)
    (hnone : Q (.error .noResult) s) (hsome : ∀ event, Q (.ok event) s) :
    (stages hours).Follows (orThrow r) Q s := by
  cases r with
  | none => exact hnone
  | some event => exact hsome event

theorem getEvent_follows {orgId : String} {id : EventId}
    {Q : Except HttpError EventRow → Stage → Prop}
    (hpermit : Stage.Permits hours s (.getById id))
    (herror : ∀ r e, Q (.error e) (s.note ⟨.getById id, r⟩))
    (hok : ∀ event, event.id = id → Q (.ok event) (s.note ⟨.getById id, some event⟩)) :
    (stages hours).Follows (getEvent orgId id).run Q s := by
  refine ⟨hpermit, fun r hr => ?_⟩
  cases r with
  | none => exact herror none _
  | some event =>
    change (stages hours).Follows (ExceptT.run (if event.deletedAt ≠ none ∨ event.orgId ≠ orgId then
      throw (.notFound "Event not found") else pure event)) Q _
    split
    · exact herror (some event) _
    · exact hok event (hr event rfl)

theorem refused {id : EventId} {e : HttpError} (hs : s.settled = true) :
    s.settled = true ∧
      ∀ event, (Except.error e : Except HttpError EventRow) = .ok event → s = .extended id :=
  ⟨hs, fun _ h => by cases h⟩

theorem extend_follows (orgId : String) (id : EventId) (expiresAt : Option Date) :
    (stages hours).Follows (extend orgId id expiresAt).run
      (fun r s => s.settled = true ∧ ∀ event, r = .ok event → s = .extended id)
      (.extending id none) := by
  refine (follows_attempt _ _ _ _ _).mpr (getEvent_follows rfl ?_ ?_)
  · intro r e
    exact refused rfl
  intro event hid
  change (stages hours).Follows (ExceptT.run (if isEventPurged event then _ else _)) _
    (.extending id (some event))
  by_cases hpurged : isEventPurged event
  · rw [if_pos hpurged]
    exact refused rfl
  rw [if_neg hpurged]
  have hnull : event.purgedAt = none := not_not.mp hpurged
  have hwrite : (stages hours).Follows (setExpiryState id (extended expiresAt)).run
      (fun r s => s.settled = true ∧ ∀ event, r = .ok event → s = .extended id)
      (.extending id (some event)) := by
    refine ⟨⟨rfl, hnull, expiresAt, rfl⟩, fun r _ => orThrow_follows r (refused rfl) fun _ => ?_⟩
    exact ⟨rfl, fun _ _ => rfl⟩
  cases expiresAt with
  | none => exact hwrite
  | some d =>
    refine ⟨trivial, fun t _ => ?_⟩
    change (stages hours).Follows (ExceptT.run ((if d ≤ t then _ else _ : Attempt Unit) >>= _)) _
      (.extending id (some event))
    by_cases hpast : d ≤ t
    · rw [if_pos hpast]
      exact refused rfl
    · rw [if_neg hpast]
      exact hwrite

theorem acknowledge_follows (orgId : String) (id : EventId) :
    (stages hours).Follows (acknowledge orgId id).run (fun _ s => s = .request) .request := by
  refine (follows_attempt _ _ _ _ _).mpr (getEvent_follows trivial (fun _ _ => rfl) ?_)
  intro event _
  refine ⟨trivial, fun t _ => ?_⟩
  change (stages hours).Follows (ExceptT.run (if isEventExpired event t then _ else _)) _ .request
  split
  · refine ⟨trivial, fun acknowledgedAt _ => ⟨⟨acknowledgedAt, rfl⟩, fun r _ => ?_⟩⟩
    exact orThrow_follows r rfl fun _ => rfl
  · rfl

theorem purgeNow_follows (orgId : String) (id : EventId) :
    (stages hours).Follows (purgeNow orgId id).run (fun _ s => s.settled = true)
      (.ordering id none) := by
  refine (follows_attempt _ _ _ _ _).mpr (getEvent_follows rfl (fun _ _ => rfl) ?_)
  intro event hid
  refine ⟨trivial, fun t _ => ?_⟩
  change (stages hours).Follows (ExceptT.run (if isEventExpired event t then
    (if isEventPurged event then _ else _) else _)) _ (if stillDue event t then _ else .over)
  by_cases hexpired : isEventExpired event t
  · by_cases hpurged : isEventPurged event
    · rw [if_pos hexpired, if_pos hpurged, if_neg fun hdue => hpurged hdue.1]
      rfl
    · rw [if_pos hexpired, if_neg hpurged, if_pos ⟨not_not.mp hpurged, hexpired⟩]
      refine ⟨rfl,
        fun _ _ => ⟨trivial, fun purgedAt _ => ⟨⟨hid.symm, purgedAt, rfl⟩, fun r _ => ?_⟩⟩⟩
      exact orThrow_follows r rfl fun _ => rfl
  · rw [if_neg hexpired, if_neg fun hdue => hexpired hdue.2]
    rfl

theorem update_follows (orgId : String) (id : EventId) (dto : UpdateEventDto) :
    (stages hours).Follows (update orgId id dto).run (fun _ s => s = .request) .request := by
  have hwrite : (stages hours).Follows (updateEvent orgId id dto).run (fun _ s => s = .request)
      .request := ⟨trivial, fun r _ => orThrow_follows r rfl fun _ => rfl⟩
  refine (follows_attempt _ _ _ _ _).mpr ⟨trivial, fun r _ => ?_⟩
  cases r with
  | none => rfl
  | some event =>
    change (stages hours).Follows (ExceptT.run (if event.orgId ≠ orgId then _ else _)) _ .request
    split
    · rfl
    refine (follows_attempt _ _ _ _ _).mpr ?_
    cases dto.slug with
    | none => exact hwrite
    | some slug =>
      change (stages hours).Follows (ExceptT.run (if slug = "" ∨ slug = event.slug then _ else _)) _
        .request
      split
      · exact hwrite
      refine ⟨trivial, fun r _ => ?_⟩
      cases r with
      | none => exact hwrite
      | some existing =>
        change (stages hours).Follows (ExceptT.run (if existing.id ≠ event.id then _ else _)) _
          .request
        split
        · rfl
        · exact hwrite

theorem notifyAll_follows (t : Date) (events : List EventRow) :
    (stages hours).Follows (notifyAll t hours events).run (fun _ s => s.settled = true)
      (.notifying (some t) events) := by
  induction events with
  | nil => rfl
  | cons event events ih =>
    refine ⟨⟨rfl, rfl⟩, fun r _ => ?_⟩
    cases r with
    | none => rfl
    | some row => exact ⟨rfl, fun _ _ => ih⟩

theorem purgeAll_follows (t : Date) (events : List EventRow) :
    (stages hours).Follows (purgeAll t events).run (fun _ s => s.settled = true)
      (.sweeping (some t) events) := by
  induction events with
  | nil => rfl
  | cons event events ih =>
    refine ⟨rfl, fun r _ => ?_⟩
    cases r with
    | none => exact ih
    | some current =>
      change (stages hours).Follows (ExceptT.run (if stillDue current t then _ else _)) _
        (if stillDue current t then _ else _)
      by_cases hdue : stillDue current t
      · rw [if_pos hdue, if_pos hdue]
        refine ⟨rfl, fun _ _ => ⟨⟨rfl, t, rfl⟩, fun r _ => ?_⟩⟩
        cases r with
        | none => rfl
        | some row => exact ih
      · rw [if_neg hdue, if_neg hdue]
        exact ih

theorem eventExpirySweep_follows :
    (stages hours).Follows handleEventExpirySweep.run (fun _ s => s.settled = true)
      (.notifying none []) := by
  refine ⟨trivial, fun t _ => ⟨trivial, fun graceHours hgrace => ?_⟩⟩
  obtain rfl : graceHours = hours := hgrace
  exact ⟨rfl, fun events _ => notifyAll_follows t events⟩

theorem eventPurgeSweep_follows :
    (stages hours).Follows handleEventPurgeSweep.run (fun _ s => s.settled = true)
      (.sweeping none []) :=
  ⟨trivial, fun t _ => ⟨rfl, fun events _ => purgeAll_follows t events⟩⟩

/-- Every call keeps to its stages. -/
theorem call_follows (c : ExpiryCall) :
    (stages hours).Follows c.prog (c.Post) c.first := by
  cases c with
  | extend orgId id expiresAt =>
    refine follows_map (follows_mono _ ?_ _ _ (extend_follows orgId id expiresAt))
    rintro r s ⟨hsettled, hwritten⟩
    refine ⟨hsettled, ?_⟩
    rintro _ _ _ event ⟨⟩ hok
    cases r with
    | error e => cases hok
    | ok row => exact hwritten row rfl
  | acknowledge orgId id =>
    refine follows_map (follows_mono _ ?_ _ _ (acknowledge_follows orgId id))
    rintro r s rfl
    exact post_of_settled (by simp) rfl
  | purgeNow orgId id =>
    refine follows_map (follows_mono _ ?_ _ _ (purgeNow_follows orgId id))
    intro r s hsettled
    exact post_of_settled (by simp) hsettled
  | update orgId id dto =>
    refine follows_map (follows_mono _ ?_ _ _ (update_follows orgId id dto))
    rintro r s rfl
    exact post_of_settled (by simp) rfl
  | eventExpirySweep =>
    refine follows_map (follows_mono _ ?_ _ _ eventExpirySweep_follows)
    intro r s hsettled
    exact post_of_settled (by simp) hsettled
  | eventPurgeSweep =>
    refine follows_map (follows_mono _ ?_ _ _ eventPurgeSweep_follows)
    intro r s hsettled
    exact post_of_settled (by simp) hsettled

end Follows

end EventLens.Expiry
