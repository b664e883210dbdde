import EventLens.ExpiryStages

/-!
What precedes the deletion of an event's media by the purge sweep. The
deadline is the expiry plus the grace period, not the notification plus the
grace period, so a late expiry sweep shortens the notice. In runs in which no
date is changed under a sweep that has selected the event, and the general
update leaves the date of an event alone whose purge is scheduled, the sweep
deletes only events whose expiry has passed by the grace period and has been
notified.
-/

namespace EventLens.Expiry

open Programs Contract

/-- The stages of the calls in progress. -/
def stagesOf (p : ExpiryPool) : Multiset Stage := notesOf (stages 0) ExpiryCall.first p.threads

/-- The events a sweep has selected and not dealt with. -/
def Stage.selection : Stage → List EventId
  | .notifying _ events | .informing _ _ events | .sweeping _ events | .marking _ _ events =>
    events.map EventRow.id
  | .deleting _ current events => current.id :: events.map EventRow.id
  | _ => []

/-- The event whose expiry a statement writes, and the date it writes. -/
def ExpiryOp.redates : ExpiryOp → Option (EventId × Option Date)
  | .setExpiryState id values => values.expiresAt.map (fun expiresAt => (id, expiresAt))
  | .update _ id dto => dto.expiresAt.map (fun expiresAt => (id, expiresAt))
  | _ => none

/-- No sweep in progress still has to deal with the event of this date. -/
def Apart (S : Multiset Stage) (o : ExpiryOp) : Prop :=
  ∀ date ∈ o.redates, ∀ s ∈ S, date.1 ∉ s.selection

/-- The general update does not change the date of an event whose purge is
scheduled. -/
def KeepsScheduled (s : EventStore) : ExpiryOp → Prop
  | .update _ id dto => ∀ expiresAt ∈ dto.expiresAt, ∀ event ∈ s.rows, event.id = id →
      event.purgeAfter = none ∨ event.expiresAt = expiresAt
  | _ => True

instance (S : Multiset Stage) (o : ExpiryOp) : Decidable (Apart S o) := by
  unfold Apart
  infer_instance

instance (s : EventStore) (o : ExpiryOp) : Decidable (KeepsScheduled s o) := by
  unfold KeepsScheduled
  split <;> infer_instance

def Undisturbed (p : ExpiryPool) (_t : ExpiryThread) (e : ExpiryEvent) : Prop :=
  Apart (stagesOf p) e.1 ∧ KeepsScheduled p.state e.1

instance (p : ExpiryPool) (t : ExpiryThread) (e : ExpiryEvent) : Decidable (Undisturbed p t e) :=
  inferInstanceAs (Decidable (_ ∧ _))

/-- The notification of this expiry has been queued after the expiry, or the
sweep that recorded it is about to queue it. -/
def Noticed (S : Multiset Stage) (s : EventStore) (id : EventId) (expiresAt : Date) : Prop :=
  (∃ q ∈ s.jobs, q.job = .sendEventExpiry id ∧ expiresAt ≤ q.timestamp) ∨
    ∃ now events, Stage.informing now id events ∈ S ∧ expiresAt ≤ now

/-- A purge sweep orders the deletion of media only when the expiry in force
has passed by the grace period and has been noticed. -/
def PurgedAfterNotice (hours : ℕ) (p : ExpiryPool) (t : ExpiryThread) (e : ExpiryEvent) : Prop :=
  t.call = .eventPurgeSweep → ∀ orgId id (stamp : Date),
    e = ⟨.queue (.cleanupPrefix ⟨orgId, id⟩), stamp⟩ → ∀ event ∈ p.state.rows, event.id = id →
      ∃ expiresAt, event.expiresAt = some expiresAt ∧ purgeDeadline expiresAt hours ≤ stamp ∧
        Noticed (stagesOf p) p.state id expiresAt

/-- Nothing is scheduled yet. -/
structure EventStore.Fresh (s : EventStore) : Prop where
  ids : (s.rows.map EventRow.id).Nodup
  unscheduled : ∀ event ∈ s.rows, event.purgeAfter = none

/-! The invariant. -/

/-- The event still has the date on which a sweep selected it. -/
def Dated (s : EventStore) (id : EventId) (expiresAt : Date) : Prop :=
  ∀ event ∈ s.rows, event.id = id → event.expiresAt = some expiresAt

def Selected (s : EventStore) (now : Date) (event : EventRow) : Prop :=
  ∃ expiresAt, event.expiresAt = some expiresAt ∧ expiresAt ≤ now ∧ Dated s event.id expiresAt

def Due (hours : ℕ) (S : Multiset Stage) (s : EventStore) (now : Date) (id : EventId) : Prop :=
  ∃ expiresAt, purgeDeadline expiresAt hours ≤ now ∧ Noticed S s id expiresAt ∧
    Dated s id expiresAt

/-- What a stage has established about the events it still has to deal with. -/
def Stage.Fits (hours : ℕ) (S : Multiset Stage) (s : EventStore) : Stage → Prop
  | .notifying now events =>
    ∀ t ∈ now, t ≤ s.clock ∧ ∀ event ∈ events, Selected s t event
  | .informing t _ events => t ≤ s.clock ∧ ∀ event ∈ events, Selected s t event
  | .sweeping now events =>
    ∀ t ∈ now, t ≤ s.clock ∧ ∀ event ∈ events, Due hours S s t event.id
  | .marking t _ events => t ≤ s.clock ∧ ∀ event ∈ events, Due hours S s t event.id
  | .deleting t current events =>
    t ≤ s.clock ∧ Due hours S s t current.id ∧ ∀ event ∈ events, Due hours S s t event.id
  | .ordered t _ => t ≤ s.clock
  | _ => True

structure Orderly (hours : ℕ) (S : Multiset Stage) (s : EventStore) : Prop where
  ids : (s.rows.map EventRow.id).Nodup
  scheduled : ∀ event ∈ s.rows, ∀ deadline, event.purgeAfter = some deadline →
    ∃ expiresAt, event.expiresAt = some expiresAt ∧ deadline = purgeDeadline expiresAt hours ∧
      Noticed S s event.id expiresAt
  fits : ∀ g ∈ S, g.Fits hours S s

theorem orderly_fresh {hours : ℕ} {s : EventStore} (hs : s.Fresh) : Orderly hours 0 s where
  ids := hs.ids
  scheduled event hevent deadline hdeadline := by
    rw [hs.unscheduled event hevent] at hdeadline
    cases hdeadline
  fits g hg := absurd hg (Multiset.notMem_zero g)

section Steps

variable {hours : ℕ} {g g' : Stage} {S S' N : Multiset Stage} {s s' : EventStore}

theorem Due.mono {now : Date} {id : EventId} (h : Due hours S s now id)
    (hnoticed : ∀ id expiresAt, Noticed S s id expiresAt → Noticed S' s' id expiresAt)
    (hdated : ∀ expiresAt, Dated s id expiresAt → Dated s' id expiresAt) :
    Due hours S' s' now id := by
  obtain ⟨expiresAt, hdeadline, hnotice, hdate⟩ := h
  exact ⟨expiresAt, hdeadline, hnoticed _ _ hnotice, hdated _ hdate⟩

theorem Selected.mono {now : Date} {event : EventRow} (h : Selected s now event)
    (hdated : ∀ expiresAt, Dated s event.id expiresAt → Dated s' event.id expiresAt) :
    Selected s' now event := by
  obtain ⟨expiresAt, hexpires, hpast, hdate⟩ := h
  exact ⟨expiresAt, hexpires, hpast, hdated _ hdate⟩

/-- What a stage has established outlasts a step that keeps the notices and
the dates of its selection. -/
theorem Stage.Fits.mono (h : g.Fits hours S s) (hclock : s.clock ≤ s'.clock)
    (hnoticed : ∀ id expiresAt, Noticed S s id expiresAt → Noticed S' s' id expiresAt)
    (hdated : ∀ id ∈ g.selection, ∀ expiresAt, Dated s id expiresAt → Dated s' id expiresAt) :
    g.Fits hours S' s' := by
  cases g with
  | notifying now events =>
    intro t ht
    obtain ⟨hnow, hevents⟩ := h t ht
    exact ⟨hnow.trans hclock, fun event he =>
      (hevents event he).mono (hdated _ (List.mem_map_of_mem he))⟩
  | informing t id events =>
    exact ⟨h.1.trans hclock, fun event he =>
      (h.2 event he).mono (hdated _ (List.mem_map_of_mem he))⟩
  | sweeping now events =>
    intro t ht
    obtain ⟨hnow, hevents⟩ := h t ht
    exact ⟨hnow.trans hclock, fun event he =>
      (hevents event he).mono hnoticed (hdated _ (List.mem_map_of_mem he))⟩
  | marking t id events =>
    exact ⟨h.1.trans hclock, fun event he =>
      (h.2 event he).mono hnoticed (hdated _ (List.mem_map_of_mem he))⟩
  | deleting t current events =>
    refine ⟨h.1.trans hclock, h.2.1.mono hnoticed (hdated _ (List.mem_cons_self ..)), ?_⟩
    intro event he
    exact (h.2.2 event he).mono hnoticed
      (hdated _ (List.mem_cons_of_mem _ (List.mem_map_of_mem he)))
  | request => trivial
  | extending id read => trivial
  | extended id => trivial
  | ordering id read => trivial
  | ordered t event => exact h.trans hclock
  | «over» => trivial

/-- A step of one call, in terms of what it does to the rows and the notices. -/
theorem Orderly.next (h : Orderly hours (g ::ₘ N) s)
    (hids : s'.rows.map EventRow.id = s.rows.map EventRow.id) (hclock : s.clock ≤ s'.clock)
    (hnoticed : ∀ id expiresAt, Noticed (g ::ₘ N) s id expiresAt →
      Noticed (g' ::ₘ N) s' id expiresAt)
    (hdated : ∀ k ∈ N, ∀ id ∈ k.selection, ∀ expiresAt, Dated s id expiresAt →
      Dated s' id expiresAt)
    (hscheduled : ∀ event ∈ s'.rows, ∀ deadline, event.purgeAfter = some deadline →
      (∃ before ∈ s.rows, before.id = event.id ∧ before.expiresAt = event.expiresAt ∧
        before.purgeAfter = some deadline) ∨
      ∃ expiresAt, event.expiresAt = some expiresAt ∧ deadline = purgeDeadline expiresAt hours ∧
        Noticed (g' ::ₘ N) s' event.id expiresAt)
    (hfits : g'.Fits hours (g' ::ₘ N) s') : Orderly hours (g' ::ₘ N) s' where
  ids := by
    rw [hids]
    exact h.ids
  scheduled event hevent deadline hdeadline := by
    rcases hscheduled event hevent deadline hdeadline with ⟨before, hmem, hid, hdate,
      hbefore⟩ | hnew
    · obtain ⟨expiresAt, hexpires, heq, hnotice⟩ := h.scheduled before hmem deadline hbefore
      rw [hid] at hnotice
      exact ⟨expiresAt, hdate ▸ hexpires, heq, hnoticed _ _ hnotice⟩
    · exact hnew
  fits k hk := by
    rcases Multiset.mem_cons.mp hk with rfl | hk
    · exact hfits
    · exact (h.fits k (Multiset.mem_cons_of_mem hk)).mono hclock hnoticed (hdated k hk)

theorem Noticed.add {id : EventId} {expiresAt : Date} (h : Noticed S s id expiresAt) (g : Stage) :
    Noticed (g ::ₘ S) s id expiresAt := by
  rcases h with hqueued | ⟨now, events, hmem, hpast⟩
  · exact .inl hqueued
  · exact .inr ⟨now, events, Multiset.mem_cons_of_mem hmem, hpast⟩

theorem Noticed.drop {id : EventId} {expiresAt : Date} (h : Noticed (g ::ₘ S) s id expiresAt)
    (hg : ∀ now id events, g ≠ .informing now id events) : Noticed S s id expiresAt := by
  rcases h with hqueued | ⟨now, events, hmem, hpast⟩
  · exact .inl hqueued
  · rcases Multiset.mem_cons.mp hmem with hinforming | hmem
    · exact absurd hinforming.symm (hg now id events)
    · exact .inr ⟨now, events, hmem, hpast⟩

theorem noticed_mono (hjobs : s'.jobs = s.jobs) (hg : ∀ now id events, g ≠ .informing now id events)
    (id : EventId) (expiresAt : Date) (h : Noticed (g ::ₘ N) s id expiresAt) :
    Noticed (g' ::ₘ N) s' id expiresAt := by
  rcases h.drop hg with ⟨q, hq, hjob⟩ | ⟨now, events, hmem, hpast⟩
  · exact .inl ⟨q, hjobs ▸ hq, hjob⟩
  · exact .inr ⟨now, events, Multiset.mem_cons_of_mem hmem, hpast⟩

/-- A step that reads, the clock included. -/
theorem Orderly.read (h : Orderly hours (g ::ₘ N) s) (hrows : s'.rows = s.rows)
    (hjobs : s'.jobs = s.jobs) (hclock : s.clock ≤ s'.clock)
    (hg : ∀ now id events, g ≠ .informing now id events)
    (hfits : g'.Fits hours (g ::ₘ N) s') : Orderly hours (g' ::ₘ N) s' := by
  refine h.next (by rw [hrows]) hclock (noticed_mono hjobs hg) ?_ ?_ ?_
  · intro k hk id hid expiresAt hdate
    rw [Dated, hrows]
    exact hdate
  · intro event hevent deadline hdeadline
    rw [hrows] at hevent
    exact .inl ⟨event, hevent, rfl, rfl, hdeadline⟩
  · exact hfits.mono le_rfl (noticed_mono rfl hg) fun _ _ _ hdate => hdate

theorem mem_setExpiryState {id : EventId} {values : ExpiryValues} {event : EventRow}
    (h : event ∈ (s.setExpiryState id values).rows) :
    (∃ before ∈ s.rows, before.id = id ∧ event = values.apply before) ∨
      (event ∈ s.rows ∧ event.id ≠ id) := mem_updateRow.mp h

/-- A write that leaves the dates as they are. -/
theorem dated_setExpiryState {id k : EventId} {values : ExpiryValues} (hv : values.expiresAt = none)
    {expiresAt : Date} (h : Dated s k expiresAt) :
    Dated (s.setExpiryState id values) k expiresAt := by
  intro event hevent hk
  rcases mem_setExpiryState hevent with ⟨before, hmem, hid, rfl⟩ | ⟨hmem, _⟩
  · have hbefore := h before hmem hk
    simp only [ExpiryValues.apply, hv, Option.getD_none]
    exact hbefore
  · exact h event hmem hk

theorem dated_other {id k : EventId} {values : ExpiryValues} (hne : k ≠ id) {expiresAt : Date}
    (h : Dated s k expiresAt) : Dated (s.setExpiryState id values) k expiresAt := by
  intro event hevent hk
  rcases mem_setExpiryState hevent with ⟨before, hmem, hid, rfl⟩ | ⟨hmem, _⟩
  · exact absurd (hk.symm.trans hid) hne
  · exact h event hmem hk

/-- A write of expiry columns of one event. -/
theorem Orderly.write (h : Orderly hours (g ::ₘ N) s) {id : EventId} {values : ExpiryValues}
    (hg : ∀ now id events, g ≠ .informing now id events)
    (hdate : values.expiresAt = none ∨ ∀ k ∈ N, id ∉ k.selection)
    (hdeadline : ∀ before ∈ s.rows, before.id = id → ∀ deadline,
      (values.apply before).purgeAfter = some deadline →
        (before.expiresAt = (values.apply before).expiresAt ∧ before.purgeAfter = some deadline) ∨
        ∃ expiresAt, (values.apply before).expiresAt = some expiresAt ∧
          deadline = purgeDeadline expiresAt hours ∧
          Noticed (g' ::ₘ N) (s.setExpiryState id values) id expiresAt)
    (hfits : g'.Fits hours (g' ::ₘ N) (s.setExpiryState id values)) :
    Orderly hours (g' ::ₘ N) (s.setExpiryState id values) := by
  refine h.next (EventStore.ids_setExpiryState values) le_rfl (noticed_mono rfl hg) ?_ ?_ hfits
  · intro k hk j hj expiresAt hdated
    rcases hdate with hnone | hapart
    · exact dated_setExpiryState hnone hdated
    · have hne : j ≠ id := by
        rintro rfl
        exact hapart k hk hj
      exact dated_other hne hdated
  · intro event hevent deadline hpurge
    rcases mem_setExpiryState hevent with ⟨before, hmem, rfl, rfl⟩ | ⟨hmem, _⟩
    · rcases hdeadline before hmem rfl deadline hpurge with ⟨hexpires, hbefore⟩ | hnew
      · exact .inl ⟨before, hmem, rfl, hexpires, hbefore⟩
      · exact .inr hnew
    · exact .inl ⟨event, hmem, rfl, rfl, hpurge⟩

theorem mem_update {orgId : String} {id : EventId} {dto : UpdateEventDto} {event : EventRow}
    (h : event ∈ (s.update orgId id dto).rows) :
    (∃ before ∈ s.rows, before.id = id ∧ before.orgId = orgId ∧ event = dto.apply before) ∨
      event ∈ s.rows := by
  rcases mem_updateRow.mp h with ⟨before, hmem, hid, rfl⟩ | ⟨hmem, _⟩
  · by_cases horg : before.orgId = orgId
    · exact .inl ⟨before, hmem, hid, horg, if_pos horg⟩
    · rw [if_neg horg]
      exact .inr hmem
  · exact .inr hmem

theorem Orderly.updated (h : Orderly hours (g ::ₘ N) s) {orgId : String} {id : EventId}
    {dto : UpdateEventDto} (hg : ∀ now id events, g ≠ .informing now id events)
    (hapart : ∀ date ∈ (ExpiryOp.update orgId id dto).redates, ∀ k ∈ N, date.1 ∉ k.selection)
    (hkeeps : KeepsScheduled s (.update orgId id dto))
    (hfits : g'.Fits hours (g' ::ₘ N) (s.update orgId id dto)) :
    Orderly hours (g' ::ₘ N) (s.update orgId id dto) := by
  refine h.next (EventStore.ids_update orgId dto) le_rfl (noticed_mono rfl hg) ?_ ?_ hfits
  · intro k hk j hj expiresAt hdated event hevent hjk
    rcases mem_update hevent with ⟨before, hmem, rfl, _, rfl⟩ | hmem
    · have hbefore := hdated before hmem hjk
      cases hdto : dto.expiresAt with
      | none => simpa [UpdateEventDto.apply, hdto] using hbefore
      | some date =>
        obtain rfl : before.id = j := hjk
        exact absurd hj (hapart (before.id, date) (by simp [ExpiryOp.redates, hdto]) k hk)
    · exact hdated event hmem hjk
  · intro event hevent deadline hpurge
    rcases mem_update hevent with ⟨before, hmem, rfl, _, rfl⟩ | hmem
    · have hbefore : before.purgeAfter = some deadline := hpurge
      refine .inl ⟨before, hmem, rfl, ?_, hbefore⟩
      cases hdto : dto.expiresAt with
      | none => simp [UpdateEventDto.apply, hdto]
      | some date =>
        rcases hkeeps date (by simp [hdto]) before hmem rfl with hnone | hsame
        · rw [hnone] at hbefore
          cases hbefore
        · simpa [UpdateEventDto.apply, hdto] using hsame
    · exact .inl ⟨event, hmem, rfl, rfl, hpurge⟩

/-- A sweep that recorded a notification queues its email. -/
theorem Orderly.told {t stamp : Date} {id : EventId} {events : List EventRow}
    (h : Orderly hours (.informing t id events ::ₘ N) s) :
    Orderly hours (.notifying (some t) events ::ₘ N)
      ((s.tick stamp).addJob (.sendEventExpiry id)) := by
  obtain ⟨hclock, hevents⟩ := h.fits _ (Multiset.mem_cons_self ..)
  have hlater : s.clock ≤ (s.tick stamp).clock := le_max_left ..
  refine h.next rfl hlater ?_ (fun _ _ _ _ _ hdated => hdated) ?_ ?_
  · rintro j expiresAt (⟨q, hq, hjob⟩ | ⟨now, rest, hmem, hpast⟩)
    · exact .inl ⟨q, List.mem_append_left _ hq, hjob⟩
    · rcases Multiset.mem_cons.mp hmem with hinforming | hmem
      · obtain ⟨rfl, rfl, rfl⟩ := Stage.informing.inj hinforming
        refine .inl ⟨_, List.mem_append_right _ (List.mem_singleton_self _), rfl, ?_⟩
        exact hpast.trans (hclock.trans hlater)
      · exact .inr ⟨now, rest, Multiset.mem_cons_of_mem hmem, hpast⟩
  · intro event hevent deadline hpurge
    exact .inl ⟨event, hevent, rfl, rfl, hpurge⟩
  · rintro _ ⟨⟩
    exact ⟨hclock.trans hlater, hevents⟩

/-- An order to delete media changes no event. -/
theorem Orderly.order (h : Orderly hours (g ::ₘ N) s) {stamp : Date} {objects : EventPrefix}
    (hg : ∀ now id events, g ≠ .informing now id events) (hsel : g'.Fits hours (g ::ₘ N) s) :
    Orderly hours (g' ::ₘ N) ((s.tick stamp).addJob (.cleanupPrefix objects)) := by
  have hlater : s.clock ≤ (s.tick stamp).clock := le_max_left ..
  have hnoticed : ∀ id expiresAt, Noticed (g ::ₘ N) s id expiresAt →
      Noticed (g' ::ₘ N) ((s.tick stamp).addJob (.cleanupPrefix objects)) id expiresAt := by
    intro id expiresAt hnotice
    rcases hnotice.drop hg with ⟨q, hq, hjob⟩ | ⟨now, events, hmem, hpast⟩
    · exact .inl ⟨q, List.mem_append_left _ hq, hjob⟩
    · exact .inr ⟨now, events, Multiset.mem_cons_of_mem hmem, hpast⟩
  refine h.next rfl hlater hnoticed (fun _ _ _ _ _ hdated => hdated) ?_ ?_
  · intro event hevent deadline hpurge
    exact .inl ⟨event, hevent, rfl, rfl, hpurge⟩
  · exact hsel.mono hlater hnoticed fun _ _ _ hdated => hdated

/-- Every event of a new selection has the date it was selected for. -/
theorem selected_of_newlyExpired {now : Date} {event : EventRow}
    (hids : (s.rows.map EventRow.id).Nodup) (h : event ∈ s.findNewlyExpired now) :
    Selected s now event := by
  obtain ⟨hmem, expiresAt, hexpires, hpast⟩ := EventStore.of_findNewlyExpired h
  refine ⟨expiresAt, hexpires, hpast, fun other hother hid => ?_⟩
  rw [row_unique hids hother hmem hid]
  exact hexpires

theorem due_of_dueForPurge (h : Orderly hours S s) {now : Date} {event : EventRow}
    (hdue : event ∈ s.findDueForPurge now) : Due hours S s now event.id := by
  obtain ⟨hmem, deadline, hpurge, hpast⟩ := EventStore.of_findDueForPurge hdue
  obtain ⟨expiresAt, hexpires, rfl, hnotice⟩ := h.scheduled event hmem deadline hpurge
  refine ⟨expiresAt, hpast, hnotice, fun other hother hid => ?_⟩
  rw [row_unique h.ids hother hmem hid]
  exact hexpires

/-- A notification keeps the deadline with the date it was read from. -/
theorem Orderly.notify {t : Date} {event : EventRow} {events : List EventRow}
    (h : Orderly hours (.notifying (some t) (event :: events) ::ₘ N) s) :
    let s' := s.setExpiryState event.id (notified t hours event)
    Orderly hours ((Stage.notifying (some t) (event :: events)).note
      ⟨.setExpiryState event.id (notified t hours event), s'.row event.id⟩ ::ₘ N) s' := by
  intro s'
  obtain ⟨hclock, hevents⟩ := h.fits _ (Multiset.mem_cons_self ..) t rfl
  obtain ⟨expiresAt, hexpires, hpast, hdate⟩ := hevents event (List.mem_cons_self ..)
  cases hrow : s'.row event.id with
  | none =>
    refine h.write nofun (.inl rfl) ?_ trivial
    intro before hmem hid
    have hgone := findRow_eq_none.mp hrow ((notified t hours event).apply before)
      (mem_updateRow.mpr (.inl ⟨before, hmem, hid, rfl⟩))
    exact absurd hid hgone
  | some row =>
    refine h.write nofun (.inl rfl) ?_ ⟨hclock, fun other hother => ?_⟩
    · intro before hmem hid deadline hpurge
      refine .inr ⟨expiresAt, hdate before hmem hid, ?_, ?_⟩
      · have hdeadline := Option.some.inj hpurge
        rw [hexpires] at hdeadline
        exact hdeadline.symm
      · exact .inr ⟨t, events, Multiset.mem_cons_self .., hpast⟩
    · exact (hevents other (List.mem_cons_of_mem _ hother)).mono
        fun _ hdated => dated_setExpiryState rfl hdated

/-- The sweep reads an event again. -/
theorem Orderly.reread {t : Date} {event : EventRow} {events : List EventRow}
    (h : Orderly hours (.sweeping (some t) (event :: events) ::ₘ N) s) :
    Orderly hours ((Stage.sweeping (some t) (event :: events)).note
      ⟨.getById event.id, s.getById event.id⟩ ::ₘ N) s := by
  obtain ⟨hclock, hevents⟩ := h.fits _ (Multiset.mem_cons_self ..) t rfl
  have hrest : ∀ other ∈ events, Due hours _ s t other.id :=
    fun other hother => hevents other (List.mem_cons_of_mem _ hother)
  have hskip : Orderly hours (.sweeping (some t) events ::ₘ N) s := by
    refine h.read rfl rfl le_rfl nofun ?_
    rintro _ ⟨⟩
    exact ⟨hclock, hrest⟩
  cases hread : s.getById event.id with
  | none => exact hskip
  | some current =>
    change Orderly hours ((if stillDue current t then _ else _) ::ₘ N) s
    split
    · have hdue := hevents event (List.mem_cons_self ..)
      rw [← (EventStore.of_getById hread).2.1] at hdue
      exact h.read rfl rfl le_rfl nofun ⟨hclock, hdue, hrest⟩
    · exact hskip

theorem Orderly.mark {t purgedAt : Date} {id : EventId} {events : List EventRow}
    (h : Orderly hours (.marking t id events ::ₘ N) s) :
    Orderly hours (.sweeping (some t) events ::ₘ N) (s.setExpiryState id (purged purgedAt)) := by
  obtain ⟨hclock, hevents⟩ := h.fits _ (Multiset.mem_cons_self ..)
  refine h.write nofun (.inl rfl) ?_ ?_
  · intro before _ _ deadline hpurge
    cases hpurge
  · rintro _ ⟨⟩
    exact ⟨hclock, fun event hevent => (hevents event hevent).mono (noticed_mono rfl nofun)
      fun _ hdated => dated_setExpiryState rfl hdated⟩

theorem orderly_request {o : ExpiryOp} (r : ExpiryRes o)
    (h : Orderly hours (.request ::ₘ N) s) (hpermit : Stage.Permits hours .request o)
    (hapart : ∀ date ∈ o.redates, ∀ k ∈ N, date.1 ∉ k.selection) (hkeeps : KeepsScheduled s o) :
    Orderly hours (Stage.request.note ⟨o, (expiryHandler hours o r s).1⟩ ::ₘ N)
      (expiryHandler hours o r s).2 := by
  have hlater : ∀ t, s.clock ≤ (s.tick t).clock := fun t => le_max_left ..
  cases o with
  | getById id => exact h.read rfl rfl le_rfl nofun trivial
  | getBySlug slug => exact h.read rfl rfl le_rfl nofun trivial
  | now => exact h.read rfl rfl (hlater _) nofun trivial
  | update orgId id dto => exact h.updated nofun hapart hkeeps trivial
  | setExpiryState id values =>
    obtain ⟨t, rfl⟩ := hpermit
    refine h.write nofun (.inl rfl) ?_ trivial
    intro before _ _ deadline hpurge
    exact .inl ⟨rfl, hpurge⟩
  | _ => cases hpermit

theorem orderly_extending {id : EventId} {read : Option EventRow}
    {o : ExpiryOp} (r : ExpiryRes o)
    (h : Orderly hours (.extending id read ::ₘ N) s)
    (hpermit : Stage.Permits hours (.extending id read) o)
    (hapart : ∀ date ∈ o.redates, ∀ k ∈ N, date.1 ∉ k.selection) :
    Orderly hours ((Stage.extending id read).note ⟨o, (expiryHandler hours o r s).1⟩ ::ₘ N)
      (expiryHandler hours o r s).2 := by
  have hlater : ∀ t, s.clock ≤ (s.tick t).clock := fun t => le_max_left ..
  cases read with
  | none =>
    cases o with
    | getById k => exact h.read rfl rfl le_rfl nofun trivial
    | _ => cases hpermit
  | some event =>
    cases o with
    | now => exact h.read rfl rfl (hlater _) nofun trivial
    | setExpiryState k values =>
      obtain ⟨rfl, _, expiresAt, rfl⟩ := hpermit
      refine h.write nofun (.inr fun k hk => hapart (_, expiresAt) rfl k hk) ?_ trivial
      intro before _ _ deadline hpurge
      cases hpurge
    | _ => cases hpermit

theorem orderly_notifying {now : Option Date} {events : List EventRow}
    {o : ExpiryOp} (r : ExpiryRes o)
    (h : Orderly hours (.notifying now events ::ₘ N) s)
    (hpermit : Stage.Permits hours (.notifying now events) o) :
    Orderly hours ((Stage.notifying now events).note ⟨o, (expiryHandler hours o r s).1⟩ ::ₘ N)
      (expiryHandler hours o r s).2 := by
  have hfits := h.fits _ (Multiset.mem_cons_self ..)
  have hlater : ∀ t, s.clock ≤ (s.tick t).clock := fun t => le_max_left ..
  cases now with
  | none =>
    cases o with
    | now =>
      refine h.read rfl rfl (hlater _) nofun ?_
      rintro _ ⟨⟩
      exact ⟨le_rfl, fun event he => absurd he List.not_mem_nil⟩
    | _ => cases hpermit
  | some t =>
    obtain ⟨hclock, hevents⟩ := hfits t rfl
    cases events with
    | nil =>
      cases o with
      | getEventRetentionConfig => exact h.read rfl rfl le_rfl nofun hfits
      | findNewlyExpired now =>
        obtain rfl : now = t := hpermit
        refine h.read rfl rfl le_rfl nofun ?_
        rintro _ ⟨⟩
        exact ⟨hclock, fun event he => selected_of_newlyExpired h.ids he⟩
      | _ => cases hpermit
    | cons event events =>
      cases o with
      | setExpiryState k values =>
        obtain ⟨rfl, rfl⟩ := hpermit
        exact h.notify
      | _ => cases hpermit

theorem orderly_sweeping {now : Option Date} {events : List EventRow}
    {o : ExpiryOp} (r : ExpiryRes o)
    (h : Orderly hours (.sweeping now events ::ₘ N) s)
    (hpermit : Stage.Permits hours (.sweeping now events) o) :
    Orderly hours ((Stage.sweeping now events).note ⟨o, (expiryHandler hours o r s).1⟩ ::ₘ N)
      (expiryHandler hours o r s).2 := by
  have hfits := h.fits _ (Multiset.mem_cons_self ..)
  have hlater : ∀ t, s.clock ≤ (s.tick t).clock := fun t => le_max_left ..
  cases now with
  | none =>
    cases o with
    | now =>
      refine h.read rfl rfl (hlater _) nofun ?_
      rintro _ ⟨⟩
      exact ⟨le_rfl, fun event he => absurd he List.not_mem_nil⟩
    | _ => cases hpermit
  | some t =>
    obtain ⟨hclock, hevents⟩ := hfits t rfl
    cases events with
    | nil =>
      cases o with
      | findDueForPurge now =>
        obtain rfl : now = t := hpermit
        refine h.read rfl rfl le_rfl nofun ?_
        rintro _ ⟨⟩
        exact ⟨hclock, fun event he => due_of_dueForPurge h he⟩
      | _ => cases hpermit
    | cons event events =>
      cases o with
      | getById k =>
        obtain rfl : k = event.id := hpermit
        exact h.reread
      | _ => cases hpermit

theorem orderly_ordering {id : EventId} {read : Option EventRow}
    {o : ExpiryOp} (r : ExpiryRes o)
    (h : Orderly hours (.ordering id read ::ₘ N) s)
    (hpermit : Stage.Permits hours (.ordering id read) o) :
    Orderly hours ((Stage.ordering id read).note ⟨o, (expiryHandler hours o r s).1⟩ ::ₘ N)
      (expiryHandler hours o r s).2 := by
  have hlater : ∀ t, s.clock ≤ (s.tick t).clock := fun t => le_max_left ..
  cases read with
  | none =>
    cases o with
    | getById k => exact h.read rfl rfl le_rfl nofun trivial
    | _ => cases hpermit
  | some event =>
    cases o with
    | now =>
      change Orderly hours ((if _ then _ else _) ::ₘ N) _
      split
      · exact h.read rfl rfl (hlater _) nofun le_rfl
      · exact h.read rfl rfl (hlater _) nofun trivial
    | _ => cases hpermit

/-- One permitted operation of one call. -/
theorem orderly_step {o : ExpiryOp} (r : ExpiryRes o) (h : Orderly hours (g ::ₘ N) s)
    (hpermit : Stage.Permits hours g o)
    (hapart : ∀ date ∈ o.redates, ∀ k ∈ N, date.1 ∉ k.selection) (hkeeps : KeepsScheduled s o) :
    Orderly hours (g.note ⟨o, (expiryHandler hours o r s).1⟩ ::ₘ N)
      (expiryHandler hours o r s).2 := by
  have hfits := h.fits _ (Multiset.mem_cons_self ..)
  have hlater : ∀ t, s.clock ≤ (s.tick t).clock := fun t => le_max_left ..
  cases g with
  | request => exact orderly_request r h hpermit hapart hkeeps
  | extending id read => exact orderly_extending r h hpermit hapart
  | extended id => cases o <;> cases hpermit
  | notifying now events => exact orderly_notifying r h hpermit
  | informing t id events =>
    cases o with
    | queue job =>
      obtain rfl : job = .sendEventExpiry id := hpermit
      exact h.told
    | _ => cases hpermit
  | sweeping now events => exact orderly_sweeping r h hpermit
  | deleting t current events =>
    cases o with
    | queue job =>
      obtain rfl := hpermit
      exact h.order nofun ⟨hfits.1, hfits.2.2⟩
    | _ => cases hpermit
  | ordering id read => exact orderly_ordering r h hpermit
  | ordered t event =>
    cases o with
    | queue job =>
      obtain rfl := hpermit
      exact h.order nofun ⟨hfits, fun event he => absurd he List.not_mem_nil⟩
    | _ => cases hpermit
  | marking t id events =>
    cases o with
    | now =>
      refine h.read rfl rfl (hlater _) nofun ?_
      exact hfits.mono (hlater _) (fun _ _ hnotice => hnotice) fun _ _ _ hdated => hdated
    | setExpiryState k values =>
      obtain ⟨rfl, purgedAt, rfl⟩ := hpermit
      exact h.mark
    | _ => cases hpermit
  | «over» => cases o <;> cases hpermit

end Steps

section Runs

variable {hours : ℕ} {s : EventStore} {p : ExpiryPool}

/-- The answers of the store are as the calls expect them. -/
theorem handler_expects (o : ExpiryOp) (r : ExpiryRes o) :
    Expects hours ⟨o, (expiryHandler hours o r s).1⟩ := by
  cases o with
  | getById id => exact fun event hevent => (EventStore.of_getById hevent).2.1
  | getEventRetentionConfig => rfl
  | _ => trivial

theorem orderly_preserved :
    Preserves (expiryServer hours) Undisturbed (stages hours) ExpiryCall.first ExpiryCall.Post
      (Orderly hours) where
  accept c N s s' h haccept := by
    cases haccept
    refine ⟨h.ids, ?_, ?_⟩
    · intro event hevent deadline hdeadline
      obtain ⟨expiresAt, hexpires, heq, hnotice⟩ := h.scheduled event hevent deadline hdeadline
      exact ⟨expiresAt, hexpires, heq, hnotice.add _⟩
    · intro g hg
      rcases Multiset.mem_cons.mp hg with rfl | hg
      · cases c <;> first | trivial | nofun
      · exact (h.fits g hg).mono le_rfl (fun _ _ hnotice => hnotice.add _) fun _ _ _ hdated =>
          hdated
  perform p t N o r hnotes h hpermit hP := by
    refine ⟨handler_expects o r, orderly_step r h hpermit ?_ hP.2⟩
    intro date hdate k hk
    refine hP.1 date hdate k ?_
    change k ∈ notesOf (stages hours) ExpiryCall.first p.threads
    rw [hnotes]
    exact Multiset.mem_cons_of_mem hk
  release c answer g again N s s' h hpost hrelease := by
    cases hrelease
    have hg : ∀ now id events, g ≠ .informing now id events := by
      rintro now id events rfl
      cases hpost.1
    refine ⟨h.ids, ?_, ?_⟩
    · intro event hevent deadline hdeadline
      obtain ⟨expiresAt, hexpires, heq, hnotice⟩ := h.scheduled event hevent deadline hdeadline
      exact ⟨expiresAt, hexpires, heq, hnotice.drop hg⟩
    · intro k hk
      exact (h.fits k (Multiset.mem_cons_of_mem hk)).mono le_rfl
        (fun _ _ hnotice => hnotice.drop hg)
        fun _ _ _ hdated => hdated

/-- The events of a purge sweep keep it in the stages of a sweep. -/
def Stage.sweeps : Stage → Bool
  | .sweeping _ _ | .deleting _ _ _ | .marking _ _ _ | .over => true
  | _ => false

theorem sweeps_note {g : Stage} (h : g.sweeps = true) (e : ExpiryEvent) :
    (g.note e).sweeps = true := by
  obtain ⟨o, r⟩ := e
  cases g with
  | sweeping now events =>
    cases o with
    | now => cases now <;> exact h
    | findDueForPurge t => cases now <;> exact h
    | getById id =>
      cases now with
      | none => exact h
      | some t =>
        cases events with
        | nil => exact h
        | cons event events =>
          cases r with
          | none => exact h
          | some current =>
            change Stage.sweeps (if _ then _ else _) = true
            split <;> rfl
    | _ => cases now <;> cases events <;> exact h
  | deleting t current events => cases o <;> rfl
  | marking t id events => cases o <;> rfl
  | «over» => cases o <;> rfl
  | _ => cases h

theorem sweeps_notes (hours : ℕ) {t : ExpiryThread} (h : t.call = .eventPurgeSweep) :
    (t.notes (stages hours) ExpiryCall.first).sweeps = true := by
  rw [Thread.notes, h]
  generalize hstart : ExpiryCall.first .eventPurgeSweep = g
  have hg : g.sweeps = true := by
    rw [← hstart]
    rfl
  clear hstart
  induction t.past generalizing g with
  | nil => exact hg
  | cons e past ih => exact ih (g.note e) (sweeps_note hg e)

/-- In every run in which no date changes under a sweep, nor under a scheduled
purge by the general update, the purge sweep deletes media only after notice
of the expiry in force and after the grace period since that expiry. -/
theorem purge_after_notice (hs : s.Fresh)
    (h : (expiryServer hours).Reaches Undisturbed ⟨[], s⟩ p) (m : ExpiryMove) :
    (expiryServer hours).Meets (PurgedAfterNotice hours) m p := by
  intro te hte hcall orgId id stamp hqueue event hevent hid
  obtain ⟨t, e⟩ := te
  obtain rfl : e = _ := hqueue
  obtain ⟨N, r, hnotes, hI, hpermit, hstamp⟩ :=
    h.event (fun c => call_follows c) orderly_preserved rfl (orderly_fresh hs) hte
  have hsweeps := sweeps_notes hours hcall
  have hstages : stagesOf p = t.notes (stages hours) ExpiryCall.first ::ₘ N := hnotes
  rw [hstages]
  generalize t.notes (stages hours) ExpiryCall.first = g at hI hpermit hsweeps
  cases g with
  | deleting now current events =>
    obtain ⟨hclock, ⟨expiresAt, hdeadline, hnotice, hdate⟩, -⟩ :=
      hI.fits _ (Multiset.mem_cons_self ..)
    obtain rfl : current.id = id := by
      cases hpermit
      rfl
    have hlater : p.state.clock ≤ stamp := by
      rw [show stamp = max p.state.clock r from hstamp]
      exact le_max_left ..
    exact ⟨expiresAt, hdate event hevent hid, hdeadline.trans (hclock.trans hlater), hnotice⟩
  | sweeping now events => cases now <;> cases events <;> cases hpermit
  | marking now id events => cases hpermit
  | «over» => cases hpermit
  | _ => cases hsweeps

end Runs

/-! A late notification, and one in time. -/

/-- The deletion of media is ordered only when the expiry in force and a
notification queued after it both lie back by the grace period. -/
def NoticeAndGrace (hours : ℕ) (p : ExpiryPool) (t : ExpiryThread) (e : ExpiryEvent) : Prop :=
  t.call = .eventPurgeSweep → ∀ orgId id (stamp : Date),
    e = ⟨.queue (.cleanupPrefix ⟨orgId, id⟩), stamp⟩ → ∀ event ∈ p.state.rows, event.id = id →
      ∃ expiresAt, event.expiresAt = some expiresAt ∧ purgeDeadline expiresAt hours ≤ stamp ∧
        ∃ q ∈ p.state.jobs, q.job = .sendEventExpiry id ∧ expiresAt ≤ q.timestamp ∧
          purgeDeadline q.timestamp hours ≤ stamp

/-- The time at which a call reads the clock or queues a job. -/
def clockAt (t : Date) : (o : ExpiryOp) → ExpiryRes o
  | .now | .queue _ => t
  | .getEventRetentionConfig => 0
  | .getById _ | .getBySlug _ | .setExpiryState _ _ | .update _ _ _ => none
  | .findNewlyExpired _ | .findDueForPurge _ => []

/-- Thread `i` performs its next `n` operations at time `t`. -/
def performs (i n : ℕ) (t : Date) : List ExpiryMove := List.replicate n (.perform i (clockAt t))

/-- A call that runs alone at time `t`, in `n` operations. -/
def wholeCall (c : ExpiryCall) (n : ℕ) (t : Date) : List ExpiryMove :=
  .start c :: (performs 0 n t ++ [.leave 0 false])

/-- An event that expires at the start of the epoch. -/
def gala : EventRow := { id := 0, orgId := "org", slug := "gala", expiresAt := some 0 }

def galaStart : ExpiryPool := ⟨[], { rows := [gala] }⟩

theorem gala_fresh : ({ rows := [gala] } : EventStore).Fresh where
  ids := by simp
  unscheduled event hevent := by
    cases List.mem_singleton.mp hevent
    rfl

/-- An expiry sweep at time `t`, and a purge sweep at the end of one hour and
one millisecond that is about to order the deletion. -/
def notifiedAt (t : Date) : List ExpiryMove :=
  wholeCall .eventExpirySweep 5 t ++ .start .eventPurgeSweep :: performs 0 3 3600001

def ExpiryCall.onDemand : ExpiryCall → Bool
  | .purgeNow _ _ => true
  | _ => false

theorem not_notice_and_grace : ¬ ∀ hours s p, s.Fresh →
    (expiryServer hours).Reaches (fun _ t _ => t.call.onDemand = false) ⟨[], s⟩ p →
      ∀ m, (expiryServer hours).Meets (NoticeAndGrace hours) m p := by
  intro h
  let p := ((expiryServer 1).play (fun _ t _ => t.call.onDemand = false) (notifiedAt 3600000)
    galaStart).get (by decide)
  have hreached : (expiryServer 1).Reaches (fun _ t _ => t.call.onDemand = false) galaStart p :=
    Server.Reaches.start.play _ (Option.some_get _).symm
  let m : ExpiryMove := .perform 0 (clockAt 3600001)
  let te := ((expiryServer 1).event m p).get (by decide)
  have hevent : (expiryServer 1).event m p = some te := (Option.some_get _).symm
  have hqueue : te.2 = ⟨.queue (.cleanupPrefix ⟨"org", 0⟩), (3600001 : ℤ)⟩ := rfl
  obtain ⟨row, hrow, hid⟩ : ∃ row ∈ p.state.rows, row.id = 0 := by decide
  obtain ⟨expiresAt, -, -, q, hq, -, -, hgrace⟩ :=
    h 1 _ p gala_fresh hreached m te hevent (by decide) "org" 0 3600001 hqueue row hrow hid
  have hlate : ∀ q ∈ p.state.jobs, ¬ purgeDeadline q.timestamp 1 ≤ 3600001 := by decide
  exact hlate q hq hgrace

theorem purge_after_notice_inTime :
    ∃ p, (expiryServer 1).play Undisturbed (notifiedAt 1) galaStart = some p ∧
      (expiryServer 1).Meets (PurgedAfterNotice 1) (.perform 0 (clockAt 3600001)) p := by
  let p := ((expiryServer 1).play Undisturbed (notifiedAt 1) galaStart).get (by decide)
  have hplay : (expiryServer 1).play Undisturbed (notifiedAt 1) galaStart = some p :=
    (Option.some_get _).symm
  exact ⟨p, hplay, purge_after_notice gala_fresh (Server.Reaches.start.play _ hplay) _⟩

end EventLens.Expiry
