import EventLens.PurgeNotice

/-!
An extension against a purge. A purge reads the event, orders the deletion of
its media and marks the event in separate statements, so that an extension can
land between the reading and the order. As long as none does, media are deleted
only once the date in force has passed. Once the calls in progress have
returned, an event whose deletion was ordered is purged, and stays closed to
extensions.
-/

namespace EventLens.Expiry

open Programs Contract

/-- The event that a purge has read and is still to order the deletion of. -/
def Stage.purges : Stage → Option EventId
  | .deleting _ current _ => some current.id
  | .ordering _ (some event) | .ordered _ event => some event.id
  | _ => none

/-- No date of an event is written between a purge's reading of the event and
its order. -/
def NotBetween (p : ExpiryPool) (_t : ExpiryThread) (e : ExpiryEvent) : Prop :=
  ∀ date ∈ e.1.redates, ∀ s ∈ stagesOf p, s.purges ≠ some date.1

instance (p : ExpiryPool) (t : ExpiryThread) (e : ExpiryEvent) : Decidable (NotBetween p t e) := by
  unfold NotBetween
  infer_instance

/-- The deletion of media is ordered only when the date in force, that of the
last extension, has passed. -/
def ExtensionHolds (p : ExpiryPool) (_t : ExpiryThread) (e : ExpiryEvent) : Prop :=
  ∀ orgId id (stamp : Date), e = ⟨.queue (.cleanupPrefix ⟨orgId, id⟩), stamp⟩ →
    ∀ event ∈ p.state.rows, event.id = id → isEventExpired event stamp

/-- The deletion of the event's media has been queued. -/
def Ordered (s : EventStore) (event : EventRow) : Prop :=
  ∃ q ∈ s.jobs, q.job = .cleanupPrefix ⟨event.orgId, event.id⟩

/-- With no call in progress an event whose deletion was ordered is purged, and
no later extension of it succeeds. -/
def PurgeFinal (hours : ℕ) (p : ExpiryPool) : Prop :=
  p.threads = [] → ∀ event ∈ p.state.rows, Ordered p.state event → isEventPurged event ∧
    ∀ p', (expiryServer hours).Reaches (fun _ _ _ => True) p p' → ∀ t ∈ p'.threads,
      ∀ orgId expiresAt row, t.call = .extend orgId event.id expiresAt → t.rest ≠ .done (.ok row)

/-- Only purged events have had their deletion ordered. -/
structure EventStore.Consistent (s : EventStore) : Prop where
  ids : (s.rows.map EventRow.id).Nodup
  purged : ∀ event ∈ s.rows, Ordered s event → isEventPurged event

/-! What a purge in progress has established. -/

def Expired (s : EventStore) (id : EventId) (now : Date) : Prop :=
  ∀ event ∈ s.rows, event.id = id → isEventExpired event now

def Stage.Holds (s : EventStore) : Stage → Prop
  | .sweeping now _ => ∀ t ∈ now, t ≤ s.clock
  | .marking t _ _ => t ≤ s.clock
  | .deleting t current _ => t ≤ s.clock ∧ Expired s current.id t
  | .ordering _ (some read) =>
    ∀ event ∈ s.rows, event.id = read.id → event.expiresAt = read.expiresAt
  | .ordered t event => t ≤ s.clock ∧ Expired s event.id t
  | _ => True

structure Decided (S : Multiset Stage) (s : EventStore) : Prop where
  ids : (s.rows.map EventRow.id).Nodup
  holds : ∀ g ∈ S, g.Holds s
  marked : ∀ event ∈ s.rows, Ordered s event →
    isEventPurged event ∨ ∃ t events, Stage.marking t event.id events ∈ S

section Steps

variable {hours : ℕ} {g g' : Stage} {S N : Multiset Stage} {s s' : EventStore}

/-- The rows of this event keep their date. -/
def SameDate (s s' : EventStore) (id : EventId) : Prop :=
  ∀ event ∈ s'.rows, event.id = id →
    ∃ before ∈ s.rows, before.id = id ∧ event.expiresAt = before.expiresAt

theorem Expired.mono {id : EventId} {now : Date} (h : Expired s id now) (hsame : SameDate s s' id) :
    Expired s' id now := by
  intro event hevent hid
  obtain ⟨before, hmem, hbefore, hdate⟩ := hsame event hevent hid
  rw [isEventExpired, hdate]
  exact h before hmem hbefore

theorem Stage.Holds.mono (h : g.Holds s) (hclock : s.clock ≤ s'.clock)
    (hsame : ∀ id, g.purges = some id → SameDate s s' id) : g.Holds s' := by
  cases g with
  | sweeping now events => exact fun t ht => (h t ht).trans hclock
  | marking t id events => exact h.trans hclock
  | deleting t current events => exact ⟨h.1.trans hclock, h.2.mono (hsame _ rfl)⟩
  | ordered t event => exact ⟨h.1.trans hclock, h.2.mono (hsame _ rfl)⟩
  | ordering id read =>
    cases read with
    | none => trivial
    | some read =>
      intro event hevent hid
      obtain ⟨before, hmem, hbefore, hdate⟩ := hsame _ rfl event hevent hid
      rw [hdate]
      exact h before hmem hbefore
  | request => trivial
  | extending id read => trivial
  | extended id => trivial
  | notifying now events => trivial
  | informing t id events => trivial
  | «over» => trivial

/-- A step of one call, in terms of what it does to dates and orders. -/
theorem Decided.next (h : Decided (g ::ₘ N) s)
    (hids : s'.rows.map EventRow.id = s.rows.map EventRow.id) (hclock : s.clock ≤ s'.clock)
    (hsame : ∀ k ∈ N, ∀ id, k.purges = some id → SameDate s s' id)
    (hmarked : ∀ event ∈ s'.rows, Ordered s' event →
      (∃ before ∈ s.rows, before.id = event.id ∧ Ordered s before ∧
        (isEventPurged before → isEventPurged event) ∧
        ∀ t events, g = .marking t event.id events →
          isEventPurged event ∨ g' = .marking t event.id events) ∨
      isEventPurged event ∨ ∃ t events, g' = .marking t event.id events)
    (hholds : g'.Holds s') : Decided (g' ::ₘ N) s' where
  ids := by
    rw [hids]
    exact h.ids
  holds k hk := by
    rcases Multiset.mem_cons.mp hk with rfl | hk
    · exact hholds
    · exact (h.holds k (Multiset.mem_cons_of_mem hk)).mono hclock (hsame k hk)
  marked event hevent hordered := by
    rcases hmarked event hevent hordered with ⟨before, hmem, hid, hbefore, hkept, hown⟩ | hdone
    · rcases h.marked before hmem hbefore with hpurged | ⟨t, events, hmarking⟩
      · exact .inl (hkept hpurged)
      · rw [hid] at hmarking
        rcases Multiset.mem_cons.mp hmarking with hg | hmarking
        · rcases hown t events hg.symm with hpurged | hg'
          · exact .inl hpurged
          · exact .inr ⟨t, events, by rw [hg']; exact Multiset.mem_cons_self ..⟩
        · exact .inr ⟨t, events, Multiset.mem_cons_of_mem hmarking⟩
    · rcases hdone with hpurged | ⟨t, events, rfl⟩
      · exact .inl hpurged
      · exact .inr ⟨t, events, Multiset.mem_cons_self ..⟩

/-- A step that reads, the clock included. -/
theorem Decided.read (h : Decided (g ::ₘ N) s) (hrows : s'.rows = s.rows) (hjobs : s'.jobs = s.jobs)
    (hclock : s.clock ≤ s'.clock)
    (hg : ∀ t id events, g = .marking t id events → g' = .marking t id events)
    (hholds : g'.Holds s') : Decided (g' ::ₘ N) s' := by
  refine h.next (by rw [hrows]) hclock ?_ ?_ hholds
  · intro k _ id _ event hevent hid
    exact ⟨event, hrows ▸ hevent, hid, rfl⟩
  · rintro event hevent ⟨q, hq, hjob⟩
    exact .inl ⟨event, hrows ▸ hevent, rfl, ⟨q, hjobs ▸ hq, hjob⟩, id,
      fun t events hmarking => .inr (hg t _ events hmarking)⟩

/-- A write of expiry columns that keeps the marks. -/
theorem Decided.write (h : Decided (g ::ₘ N) s) {id : EventId} {values : ExpiryValues}
    (hg : ∀ t id events, g ≠ .marking t id events) (hvalues : values.purgedAt = none)
    (hdate : values.expiresAt = none ∨ ∀ k ∈ N, k.purges ≠ some id)
    (hholds : g'.Holds (s.setExpiryState id values)) :
    Decided (g' ::ₘ N) (s.setExpiryState id values) := by
  refine h.next (EventStore.ids_setExpiryState values) le_rfl ?_ ?_ hholds
  · intro k hk j hj event hevent hid
    rcases mem_setExpiryState hevent with ⟨before, hmem, hbefore, rfl⟩ | ⟨hmem, _⟩
    · rcases hdate with hnone | hapart
      · exact ⟨before, hmem, hid, by simp [ExpiryValues.apply, hnone]⟩
      · obtain rfl : id = j := hbefore.symm.trans hid
        exact absurd hj (hapart k hk)
    · exact ⟨event, hmem, hid, rfl⟩
  · intro event hevent hordered
    rcases mem_setExpiryState hevent with ⟨before, hmem, hbefore, rfl⟩ | ⟨hmem, _⟩
    · refine .inl ⟨before, hmem, rfl, hordered, ?_,
        fun t events hmarking => absurd hmarking (hg _ _ _)⟩
      simp [isEventPurged, ExpiryValues.apply, hvalues]
    · exact .inl ⟨event, hmem, rfl, hordered, fun hpurged => hpurged,
        fun t events hmarking => absurd hmarking (hg _ _ _)⟩

theorem Decided.updated (h : Decided (g ::ₘ N) s) {orgId : String} {id : EventId}
    {dto : UpdateEventDto} (hg : ∀ t id events, g ≠ .marking t id events)
    (hapart : ∀ date ∈ (ExpiryOp.update orgId id dto).redates, ∀ k ∈ N, k.purges ≠ some date.1)
    (hholds : g'.Holds (s.update orgId id dto)) :
    Decided (g' ::ₘ N) (s.update orgId id dto) := by
  refine h.next (EventStore.ids_update orgId dto) le_rfl ?_ ?_ hholds
  · intro k hk j hj event hevent hid
    rcases mem_update hevent with ⟨before, hmem, hbefore, _, rfl⟩ | hmem
    · refine ⟨before, hmem, hid, ?_⟩
      cases hdto : dto.expiresAt with
      | none => simp [UpdateEventDto.apply, hdto]
      | some date =>
        obtain rfl : id = j := hbefore.symm.trans hid
        exact absurd hj (hapart (id, date) (by simp [ExpiryOp.redates, hdto]) k hk)
    · exact ⟨event, hmem, hid, rfl⟩
  · intro event hevent hordered
    rcases mem_update hevent with ⟨before, hmem, _, _, rfl⟩ | hmem
    · exact .inl ⟨before, hmem, rfl, hordered, fun hpurged => hpurged,
        fun t events hmarking => absurd hmarking (hg _ _ _)⟩
    · exact .inl ⟨event, hmem, rfl, hordered, fun hpurged => hpurged,
        fun t events hmarking => absurd hmarking (hg _ _ _)⟩

/-- A job queued. -/
theorem Decided.queued (h : Decided (g ::ₘ N) s) {stamp : Date} {job : ExpiryJob}
    (hg : ∀ t id events, g ≠ .marking t id events)
    (hjob : ∀ objects, job = .cleanupPrefix objects →
      ∃ t events, g' = .marking t objects.eventId events)
    (hholds : g'.Holds ((s.tick stamp).addJob job)) :
    Decided (g' ::ₘ N) ((s.tick stamp).addJob job) := by
  refine h.next rfl (le_max_left ..) (fun _ _ _ _ event hevent hid => ⟨event, hevent, hid, rfl⟩) ?_
    hholds
  rintro event hevent ⟨q, hq, hprefix⟩
  rcases List.mem_append.mp hq with hq | hq
  · exact .inl ⟨event, hevent, rfl, ⟨q, hq, hprefix⟩, fun hpurged => hpurged,
      fun t events hmarking => absurd hmarking (hg _ _ _)⟩
  · obtain rfl := List.mem_singleton.mp hq
    exact .inr (.inr (hjob _ hprefix))

/-- The mark that an order owes. -/
theorem Decided.mark {t purgedAt : Date} {id : EventId} {events : List EventRow}
    (h : Decided (.marking t id events ::ₘ N) s) :
    Decided (.sweeping (some t) events ::ₘ N) (s.setExpiryState id (purged purgedAt)) := by
  have hclock := h.holds _ (Multiset.mem_cons_self ..)
  refine h.next (EventStore.ids_setExpiryState _) le_rfl ?_ ?_ ?_
  · intro k _ j _ event hevent hid
    rcases mem_setExpiryState hevent with ⟨before, hmem, _, rfl⟩ | ⟨hmem, _⟩
    · exact ⟨before, hmem, hid, rfl⟩
    · exact ⟨event, hmem, hid, rfl⟩
  · intro event hevent hordered
    rcases mem_setExpiryState hevent with ⟨before, hmem, _, rfl⟩ | ⟨hmem, hne⟩
    · exact .inr (.inl (by simp [isEventPurged, ExpiryValues.apply, purged]))
    · refine .inl ⟨event, hmem, rfl, hordered, fun hpurged => hpurged, fun u rest hmarking => ?_⟩
      obtain ⟨-, hid, -⟩ := Stage.marking.inj hmarking
      exact absurd hid.symm hne
  · rintro _ ⟨⟩
    exact hclock

/-- The sweep reads an event again. -/
theorem Decided.reread {t : Date} {event : EventRow} {events : List EventRow}
    (h : Decided (.sweeping (some t) (event :: events) ::ₘ N) s) :
    Decided ((Stage.sweeping (some t) (event :: events)).note
      ⟨.getById event.id, s.getById event.id⟩ ::ₘ N) s := by
  have hclock := h.holds _ (Multiset.mem_cons_self ..) t rfl
  have hskip : Decided (.sweeping (some t) events ::ₘ N) s := by
    refine h.read rfl rfl le_rfl nofun ?_
    rintro _ ⟨⟩
    exact hclock
  cases hread : s.getById event.id with
  | none => exact hskip
  | some current =>
    change Decided ((if stillDue current t then _ else _) ::ₘ N) s
    split
    · rename_i hdue
      obtain ⟨hmem, hid, -⟩ := EventStore.of_getById hread
      refine h.read rfl rfl le_rfl nofun ⟨hclock, fun other hother hother' => ?_⟩
      rw [row_unique h.ids hother hmem hother']
      exact hdue.2
    · exact hskip

/-- A purge on demand checks the row it read against the clock. -/
theorem Decided.check {id : EventId} {read : EventRow}
    (h : Decided (.ordering id (some read) ::ₘ N) s) (t : Date) :
    Decided ((Stage.ordering id (some read)).note ⟨.now, (s.tick t).clock⟩ ::ₘ N) (s.tick t) := by
  have hsame := h.holds _ (Multiset.mem_cons_self ..)
  change Decided ((if stillDue read (s.tick t).clock then _ else _) ::ₘ N) _
  split
  · rename_i hdue
    refine h.read rfl rfl (le_max_left ..) nofun ⟨le_rfl, fun event hevent hid => ?_⟩
    rw [isEventExpired, hsame event hevent hid]
    exact hdue.2
  · exact h.read rfl rfl (le_max_left ..) nofun trivial

/-- A purge on demand reads the event. -/
theorem Decided.asked {id : EventId} (h : Decided (.ordering id none ::ₘ N) s) :
    Decided (.ordering id (s.getById id) ::ₘ N) s := by
  refine h.read rfl rfl le_rfl nofun ?_
  cases hread : s.getById id with
  | none => trivial
  | some read =>
    obtain ⟨hmem, -, -⟩ := EventStore.of_getById hread
    intro event hevent hid
    rw [row_unique h.ids hevent hmem hid]

theorem decided_request {o : ExpiryOp} (r : ExpiryRes o)
    (h : Decided (.request ::ₘ N) s) (hpermit : Stage.Permits hours .request o)
    (hapart : ∀ date ∈ o.redates, ∀ k ∈ N, k.purges ≠ some date.1) :
    Decided (Stage.request.note ⟨o, (expiryHandler hours o r s).1⟩ ::ₘ N)
      (expiryHandler hours o r s).2 := by
  have hlater : ∀ t, s.clock ≤ (s.tick t).clock := fun t => le_max_left ..
  cases o with
  | getById id => exact h.read rfl rfl le_rfl nofun trivial
  | getBySlug slug => exact h.read rfl rfl le_rfl nofun trivial
  | now => exact h.read rfl rfl (hlater _) nofun trivial
  | update orgId id dto => exact h.updated nofun hapart trivial
  | setExpiryState id values =>
    obtain ⟨t, rfl⟩ := hpermit
    exact h.write nofun rfl (.inl rfl) trivial
  | _ => cases hpermit

theorem decided_extending {id : EventId} {read : Option EventRow}
    {o : ExpiryOp} (r : ExpiryRes o)
    (h : Decided (.extending id read ::ₘ N) s)
    (hpermit : Stage.Permits hours (.extending id read) o)
    (hapart : ∀ date ∈ o.redates, ∀ k ∈ N, k.purges ≠ some date.1) :
    Decided ((Stage.extending id read).note ⟨o, (expiryHandler hours o r s).1⟩ ::ₘ N)
      (expiryHandler hours o r s).2 := by
  have hlater : ∀ t, s.clock ≤ (s.tick t).clock := fun t => le_max_left ..
  cases read with
  | none =>
    cases o with
    | getById k => exact h.read rfl rfl le_rfl nofun trivial
    | _ => cases hpermit
  | some event =>
    cases o with
    | now => exact h.read rfl rfl (hlater _) nofun trivial
    | setExpiryState k values =>
      obtain ⟨rfl, _, expiresAt, rfl⟩ := hpermit
      exact h.write nofun rfl (.inr fun k hk => hapart (_, expiresAt) rfl k hk) trivial
    | _ => cases hpermit

theorem decided_notifying {now : Option Date} {events : List EventRow}
    {o : ExpiryOp} (r : ExpiryRes o)
    (h : Decided (.notifying now events ::ₘ N) s)
    (hpermit : Stage.Permits hours (.notifying now events) o) :
    Decided ((Stage.notifying now events).note ⟨o, (expiryHandler hours o r s).1⟩ ::ₘ N)
      (expiryHandler hours o r s).2 := by
  have hlater : ∀ t, s.clock ≤ (s.tick t).clock := fun t => le_max_left ..
  cases now with
  | none =>
    cases o with
    | now => exact h.read rfl rfl (hlater _) nofun trivial
    | _ => cases hpermit
  | some t =>
    cases events with
    | nil =>
      cases o with
      | getEventRetentionConfig => exact h.read rfl rfl le_rfl nofun trivial
      | findNewlyExpired now => exact h.read rfl rfl le_rfl nofun trivial
      | _ => cases hpermit
    | cons event events =>
      cases o with
      | setExpiryState k values =>
        obtain ⟨rfl, rfl⟩ := hpermit
        refine h.write nofun rfl (.inl rfl) ?_
        generalize (expiryHandler hours _ r s).1 = row
        cases row <;> trivial
      | _ => cases hpermit

theorem decided_sweeping {now : Option Date} {events : List EventRow}
    {o : ExpiryOp} (r : ExpiryRes o)
    (h : Decided (.sweeping now events ::ₘ N) s)
    (hpermit : Stage.Permits hours (.sweeping now events) o) :
    Decided ((Stage.sweeping now events).note ⟨o, (expiryHandler hours o r s).1⟩ ::ₘ N)
      (expiryHandler hours o r s).2 := by
  have hholds := h.holds _ (Multiset.mem_cons_self ..)
  have hlater : ∀ t, s.clock ≤ (s.tick t).clock := fun t => le_max_left ..
  cases now with
  | none =>
    cases o with
    | now =>
      refine h.read rfl rfl (hlater _) nofun ?_
      rintro _ ⟨⟩
      exact le_rfl
    | _ => cases hpermit
  | some t =>
    cases events with
    | nil =>
      cases o with
      | findDueForPurge now => exact h.read rfl rfl le_rfl nofun hholds
      | _ => cases hpermit
    | cons event events =>
      cases o with
      | getById k =>
        obtain rfl : k = event.id := hpermit
        exact h.reread
      | _ => cases hpermit

/-- One permitted operation of one call. -/
theorem decided_step {o : ExpiryOp} (r : ExpiryRes o) (h : Decided (g ::ₘ N) s)
    (hpermit : Stage.Permits hours g o)
    (hapart : ∀ date ∈ o.redates, ∀ k ∈ N, k.purges ≠ some date.1) :
    Decided (g.note ⟨o, (expiryHandler hours o r s).1⟩ ::ₘ N) (expiryHandler hours o r s).2 := by
  have hholds := h.holds _ (Multiset.mem_cons_self ..)
  have hlater : ∀ t, s.clock ≤ (s.tick t).clock := fun t => le_max_left ..
  cases g with
  | request => exact decided_request r h hpermit hapart
  | extending id read => exact decided_extending r h hpermit hapart
  | extended id => cases o <;> cases hpermit
  | notifying now events => exact decided_notifying r h hpermit
  | informing t id events =>
    cases o with
    | queue job =>
      obtain rfl : job = .sendEventExpiry id := hpermit
      exact h.queued nofun nofun trivial
    | _ => cases hpermit
  | sweeping now events => exact decided_sweeping r h hpermit
  | deleting t current events =>
    cases o with
    | queue job =>
      obtain rfl := hpermit
      refine h.queued nofun ?_ (hholds.1.trans (hlater _))
      rintro _ ⟨⟩
      exact ⟨t, events, rfl⟩
    | _ => cases hpermit
  | ordering id read =>
    cases read with
    | none =>
      cases o with
      | getById k =>
        obtain rfl : k = id := hpermit
        exact h.asked
      | _ => cases hpermit
    | some event =>
      cases o with
      | now => exact h.check r
      | _ => cases hpermit
  | ordered t event =>
    cases o with
    | queue job =>
      obtain rfl := hpermit
      refine h.queued nofun ?_ (hholds.1.trans (hlater _))
      rintro _ ⟨⟩
      exact ⟨t, [], rfl⟩
    | _ => cases hpermit
  | marking t id events =>
    cases o with
    | now =>
      exact h.read rfl rfl (hlater _) (fun _ _ _ hmarking => hmarking) (hholds.trans (hlater _))
    | setExpiryState k values =>
      obtain ⟨rfl, purgedAt, rfl⟩ := hpermit
      exact h.mark
    | _ => cases hpermit
  | «over» => cases o <;> cases hpermit

end Steps

section Runs

variable {hours : ℕ} {s : EventStore} {p p' : ExpiryPool}

theorem decided_start (hs : s.Consistent) : Decided 0 s where
  ids := hs.ids
  holds g hg := absurd hg (Multiset.notMem_zero g)
  marked event hevent hordered := .inl (hs.purged event hevent hordered)

theorem decided_preserved :
    Preserves (expiryServer hours) NotBetween (stages hours) ExpiryCall.first ExpiryCall.Post
      Decided where
  accept c N s s' h haccept := by
    cases haccept
    refine ⟨h.ids, ?_, ?_⟩
    · intro g hg
      rcases Multiset.mem_cons.mp hg with rfl | hg
      · cases c <;> first | trivial | nofun
      · exact h.holds g hg
    · intro event hevent hordered
      refine (h.marked event hevent hordered).imp_right ?_
      rintro ⟨t, events, hmarking⟩
      exact ⟨t, events, Multiset.mem_cons_of_mem hmarking⟩
  perform p t N o r hnotes h hpermit hP := by
    refine ⟨handler_expects o r, decided_step r h hpermit ?_⟩
    intro date hdate k hk
    refine hP date hdate k ?_
    change k ∈ notesOf (stages hours) ExpiryCall.first p.threads
    rw [hnotes]
    exact Multiset.mem_cons_of_mem hk
  release c answer g again N s s' h hpost hrelease := by
    cases hrelease
    refine ⟨h.ids, fun k hk => h.holds k (Multiset.mem_cons_of_mem hk), ?_⟩
    intro event hevent hordered
    refine (h.marked event hevent hordered).imp_right ?_
    rintro ⟨t, events, hmarking⟩
    rcases Multiset.mem_cons.mp hmarking with rfl | hmarking
    · cases hpost.1
    · exact ⟨t, events, hmarking⟩

/-- A deletion is ordered for an event whose date has passed. -/
theorem extension_holds (hs : s.Consistent)
    (h : (expiryServer hours).Reaches NotBetween ⟨[], s⟩ p) (m : ExpiryMove) :
    (expiryServer hours).Meets ExtensionHolds m p := by
  rintro ⟨t, e⟩ hte orgId id stamp rfl event hevent hid
  obtain ⟨N, r, -, hI, hpermit, hstamp⟩ :=
    h.event (fun c => call_follows c) decided_preserved rfl (decided_start hs) hte
  have hlater : p.state.clock ≤ stamp := by
    rw [show stamp = max p.state.clock r from hstamp]
    exact le_max_left ..
  have hpast : ∀ u, u ≤ p.state.clock → isEventExpired event u → isEventExpired event stamp := by
    rintro u hu ⟨expiresAt, hexpires, hpassed⟩
    exact ⟨expiresAt, hexpires, hpassed.trans (hu.trans hlater)⟩
  have hholds := hI.holds _ (Multiset.mem_cons_self ..)
  generalize t.notes (stages hours) ExpiryCall.first = g at hpermit hholds
  cases g with
  | deleting u current events =>
    obtain rfl : current.id = id := by
      cases hpermit
      rfl
    exact hpast u hholds.1 (hholds.2 event hevent hid)
  | ordered u read =>
    obtain rfl : read.id = id := by
      cases hpermit
      rfl
    exact hpast u hholds.1 (hholds.2 event hevent hid)
  | informing u k events => cases hpermit
  | notifying now events => cases now <;> cases events <;> cases hpermit
  | sweeping now events => cases now <;> cases events <;> cases hpermit
  | extending k read => cases read <;> cases hpermit
  | ordering k read => cases read <;> cases hpermit
  | request => cases hpermit
  | extended k => cases hpermit
  | marking u k events => cases hpermit
  | «over» => cases hpermit

end Runs

/-! Once purged. -/

/-- A purged event stays purged, and no extension of it gets past its check. -/
structure Closed (id : EventId) (S : Multiset Stage) (s : EventStore) : Prop where
  purged : ∀ event ∈ s.rows, event.id = id → isEventPurged event
  read : ∀ event, Stage.extending id (some event) ∈ S → isEventPurged event
  written : Stage.extended id ∉ S

section Closing

variable {hours : ℕ} {g g' : Stage} {N : Multiset Stage} {s s' : EventStore} {id : EventId}

theorem Closed.next (h : Closed id (g ::ₘ N) s)
    (hpurged : ∀ event ∈ s'.rows, event.id = id → isEventPurged event)
    (hread : ∀ event, g' = .extending id (some event) → isEventPurged event)
    (hwritten : g' ≠ .extended id) : Closed id (g' ::ₘ N) s' where
  purged := hpurged
  read event hevent := by
    rcases Multiset.mem_cons.mp hevent with hg | hevent
    · exact hread event hg.symm
    · exact h.read event (Multiset.mem_cons_of_mem hevent)
  written hevent := by
    rcases Multiset.mem_cons.mp hevent with hg | hevent
    · exact hwritten hg.symm
    · exact h.written (Multiset.mem_cons_of_mem hevent)

/-- No call takes a purge mark back. -/
theorem permits_values {k : EventId} {values : ExpiryValues}
    (hpermit : Stage.Permits hours g (.setExpiryState k values)) :
    values.purgedAt ≠ some none := by
  cases g with
  | request =>
    obtain ⟨t, rfl⟩ := hpermit
    simp
  | extending j read =>
    cases read with
    | none => cases hpermit
    | some event =>
      obtain ⟨-, -, expiresAt, rfl⟩ := hpermit
      simp [extended]
  | notifying now events =>
    cases now with
    | none => cases hpermit
    | some t =>
      cases events with
      | nil => cases hpermit
      | cons event events =>
        obtain ⟨-, rfl⟩ := hpermit
        simp [notified]
  | marking t j events =>
    obtain ⟨-, purgedAt, rfl⟩ := hpermit
    simp [purged]
  | sweeping now events => cases now <;> cases events <;> cases hpermit
  | ordering j read => cases read <;> cases hpermit
  | _ => cases hpermit

theorem purged_kept {o : ExpiryOp} (r : ExpiryRes o) (hpermit : Stage.Permits hours g o)
    (h : ∀ event ∈ s.rows, event.id = id → isEventPurged event) :
    ∀ event ∈ (expiryHandler hours o r s).2.rows, event.id = id → isEventPurged event := by
  cases o with
  | setExpiryState k values =>
    intro event hevent hid
    rcases mem_setExpiryState hevent with ⟨before, hmem, _, rfl⟩ | ⟨hmem, _⟩
    · have hvalues := permits_values hpermit
      have hbefore := h before hmem hid
      unfold isEventPurged ExpiryValues.apply at *
      cases hcase : values.purgedAt with
      | none => simpa [hcase] using hbefore
      | some purgedAt =>
        rintro rfl
        exact hvalues hcase
    · exact h event hmem hid
  | update orgId k dto =>
    intro event hevent hid
    rcases mem_update hevent with ⟨before, hmem, _, _, rfl⟩ | hmem
    · exact h before hmem hid
    · exact h event hmem hid
  | _ => exact h

/-- The stages of an extension. -/
def Stage.extends : Stage → Bool
  | .extending _ _ | .extended _ => true
  | _ => false

theorem extends_note (h : g.extends = false) (e : ExpiryEvent) : (g.note e).extends = false := by
  obtain ⟨o, r⟩ := e
  unfold Stage.note
  split
  all_goals first
    | rfl
    | exact h
    | (split <;> first | rfl | (split <;> rfl))

theorem closed_step {o : ExpiryOp} (r : ExpiryRes o) (h : Closed id (g ::ₘ N) s)
    (hpermit : Stage.Permits hours g o) :
    Closed id (g.note ⟨o, (expiryHandler hours o r s).1⟩ ::ₘ N) (expiryHandler hours o r s).2 := by
  have hpurged := purged_kept r hpermit h.purged
  by_cases hext : g.extends = false
  · have hnote := extends_note hext ⟨o, (expiryHandler hours o r s).1⟩
    refine h.next hpurged (fun event hg => ?_) (fun hg => ?_)
    · rw [hg] at hnote
      cases hnote
    · rw [hg] at hnote
      cases hnote
  cases g with
  | extending k read =>
    cases read with
    | none =>
      cases o with
      | getById j =>
        obtain rfl : j = k := hpermit
        refine h.next hpurged (fun event hg => ?_) fun hg => by cases hg
        obtain ⟨rfl, hread⟩ := Stage.extending.inj hg
        obtain ⟨hmem, hid, -⟩ := EventStore.of_getById hread
        exact h.purged event hmem hid
      | _ => cases hpermit
    | some event =>
      have hread : k = id → isEventPurged event := by
        rintro rfl
        exact h.read event (Multiset.mem_cons_self ..)
      cases o with
      | now =>
        refine h.next hpurged (fun other hg => ?_) fun hg => by cases hg
        obtain ⟨rfl, hother⟩ := Stage.extending.inj hg
        cases hother
        exact hread rfl
      | setExpiryState j values =>
        obtain ⟨-, hnull, -⟩ := hpermit
        refine h.next hpurged (fun event hg => by cases hg) fun hg => ?_
        exact hread (Stage.extended.inj hg) hnull
      | _ => cases hpermit
  | extended k => cases o <;> cases hpermit
  | _ => exact absurd rfl hext

theorem closed_preserved :
    Preserves (expiryServer hours) (fun _ _ _ => True) (stages hours) ExpiryCall.first
      ExpiryCall.Post (Closed id) where
  accept c N s s' h haccept := by
    cases haccept
    refine ⟨h.purged, fun event hevent => ?_, fun hevent => ?_⟩
    · rcases Multiset.mem_cons.mp hevent with hfirst | hevent
      · cases c <;> cases hfirst
      · exact h.read event hevent
    · rcases Multiset.mem_cons.mp hevent with hfirst | hevent
      · cases c <;> cases hfirst
      · exact h.written hevent
  perform p t N o r _ h hpermit _ := ⟨handler_expects o r, closed_step r h hpermit⟩
  release c answer g again N s s' h _ hrelease := by
    cases hrelease
    exact ⟨h.purged, fun event hevent => h.read event (Multiset.mem_cons_of_mem hevent),
      fun hevent => h.written (Multiset.mem_cons_of_mem hevent)⟩

end Closing

section Final

variable {hours : ℕ} {s : EventStore} {p p' : ExpiryPool}

/-- From a pool without calls in which the event is purged, no extension of it
succeeds. -/
theorem extension_refused {event : EventRow} (hempty : p.threads = [])
    (hids : (p.state.rows.map EventRow.id).Nodup) (hevent : event ∈ p.state.rows)
    (hpurged : isEventPurged event)
    (h : (expiryServer hours).Reaches (fun _ _ _ => True) p p') {t : ExpiryThread}
    (ht : t ∈ p'.threads) {orgId : String} {expiresAt : Option Date} {row : Option EventRow}
    (hcall : t.call = .extend orgId event.id expiresAt) : t.rest ≠ .done (.ok row) := by
  have hclosed : Closed event.id 0 p.state := by
    refine ⟨fun other hother hid => ?_, fun other hread => absurd hread (Multiset.notMem_zero _),
      Multiset.notMem_zero _⟩
    rw [row_unique hids hother hevent hid]
    exact hpurged
  obtain ⟨hobeys, hlater⟩ := h.invariant (fun c => call_follows c) closed_preserved hempty hclosed
  intro hrest
  have hpost := hobeys t ht
  rw [Thread.Obeys, hrest] at hpost
  have hwritten := hpost.2 orgId event.id expiresAt row hcall rfl
  exact hlater.written (mem_notesOf.mpr ⟨t, ht, hwritten⟩)

theorem purge_final (hs : s.Consistent)
    (h : (expiryServer hours).Reaches NotBetween ⟨[], s⟩ p) : PurgeFinal hours p := by
  intro hempty event hevent hordered
  obtain ⟨-, hdecided⟩ :=
    h.invariant (fun c => call_follows c) decided_preserved rfl (decided_start hs)
  have hpurged : isEventPurged event := by
    rcases hdecided.marked event hevent hordered with hpurged | ⟨t, events, hmarking⟩
    · exact hpurged
    · rw [hempty] at hmarking
      exact absurd hmarking (Multiset.notMem_zero _)
  refine ⟨hpurged, fun p' hlater t ht orgId expiresAt row hcall => ?_⟩
  exact extension_refused hempty hdecided.ids hevent hpurged hlater ht hcall

/-- As long as no date is written between a purge's reading and its order, an
extension and a purge do not both win. -/
theorem extension_or_purge (hs : s.Consistent)
    (h : (expiryServer hours).Reaches NotBetween ⟨[], s⟩ p) :
    (∀ m, (expiryServer hours).Meets ExtensionHolds m p) ∧ PurgeFinal hours p :=
  ⟨extension_holds hs h, purge_final hs h⟩

end Final

/-! An extension that lands between the re-read and the order. -/

/-- A day after the expiry the purge is due. -/
def galaDue : EventRow :=
  { gala with expiryNotifiedAt := some 1, purgeAfter := some 3600000 }

def galaDueStart : ExpiryPool := ⟨[], { rows := [galaDue] }⟩

theorem galaDue_consistent : ({ rows := [galaDue] } : EventStore).Consistent where
  ids := by simp
  purged event _ := nofun

/-- A purge sweep that has read the event again, and an extension by an hour
that is written before the sweep goes on. -/
def overtakenSweep : List ExpiryMove :=
  .start .eventPurgeSweep :: performs 0 3 3600001 ++
    .start (.extend "org" 0 (some 7200000)) :: performs 1 3 3600001 ++ [.leave 1 false]

theorem not_extension_or_purge : ¬ ∀ hours s p, s.Consistent →
    (expiryServer hours).Reaches (fun _ _ _ => True) ⟨[], s⟩ p →
      (∀ m, (expiryServer hours).Meets ExtensionHolds m p) ∧ PurgeFinal hours p := by
  intro h
  let p := ((expiryServer 1).play (fun _ _ _ => True) overtakenSweep galaDueStart).get (by decide)
  have hreached : (expiryServer 1).Reaches (fun _ _ _ => True) galaDueStart p :=
    Server.Reaches.start.play _ (Option.some_get _).symm
  let m : ExpiryMove := .perform 0 (clockAt 3600001)
  let te := ((expiryServer 1).event m p).get (by decide)
  have hevent : (expiryServer 1).event m p = some te := (Option.some_get _).symm
  have hqueue : te.2 = ⟨.queue (.cleanupPrefix ⟨"org", 0⟩), (3600001 : ℤ)⟩ := rfl
  obtain ⟨row, hrow, hid, halive⟩ :
      ∃ row ∈ p.state.rows, row.id = 0 ∧ ¬ isEventExpired row 3600001 := by decide
  exact halive
    ((h 1 _ p galaDue_consistent hreached).1 m te hevent "org" 0 3600001 hqueue row hrow hid)

/-- The sweep first, and then the extension. -/
def sweepFirst : List ExpiryMove :=
  wholeCall .eventPurgeSweep 5 3600001 ++ wholeCall (.extend "org" 0 (some 7200000)) 1 3600001

theorem extension_or_purge_inTurn :
    ∃ p, (expiryServer 1).play NotBetween sweepFirst galaDueStart = some p ∧
      (∀ m, (expiryServer 1).Meets ExtensionHolds m p) ∧ PurgeFinal 1 p := by
  let p := ((expiryServer 1).play NotBetween sweepFirst galaDueStart).get (by decide)
  have hplay : (expiryServer 1).play NotBetween sweepFirst galaDueStart = some p :=
    (Option.some_get _).symm
  exact ⟨p, hplay, extension_or_purge galaDue_consistent (Server.Reaches.start.play _ hplay)⟩

end EventLens.Expiry
