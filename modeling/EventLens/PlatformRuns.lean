import EventLens.PlatformTotals
import EventLens.TenantLinks

/-!
The totals of the platform over whole runs. Whatever is created, changed or
deleted, they keep adding up as long as an organisation is removed only once no
live event and no person of it is left, and nothing is created for one that is
removed.
-/

namespace EventLens.Tenants

open Auth (OrgChange OrgWorld)

/-- A change the API makes, an event or a participant taken down, or the removal
of what was taken down before a time. -/
inductive PlatformChange
  | change (change : Change)
  | softDelete (orgId eventId : String)
  | softDeleteAndScrub (participantId : String)
  | storageReconcile (cutoff : Date) (participants : List String)
deriving DecidableEq, Repr

namespace TenantStore

variable (s : TenantStore)

def deleteAssets (gone : List String) : TenantStore :=
  { s with
    events :=
      s.events.map (fun e => { e with coverAssetId := e.coverAssetId.filter (fun a => a ∉ gone) })
    assets := s.assets.filter (fun a => a.id ∉ gone)
    files := s.files.filter (fun f => f.assetId ∉ gone)
    exifs := s.exifs.filter (fun x => x.assetId ∉ gone)
    faces := s.faces.filter (fun f => f.assetId ∉ gone) }

/-- The scrubbed participants that are past their time are told. -/
def storageReconcile (cutoff : Date) (participants : List String) : TenantStore :=
  let events :=
    (s.events.filter (fun e => e.deletedAt.any (fun time => time < cutoff))).map EventRow.id
  let assets :=
    (s.assets.filter (fun a => a.deletedAt.any (fun time => time < cutoff))).map (fun a => a.id)
  let removed := events.foldl removeEvent (s.deleteAssets assets)
  { removed with
    participants :=
      removed.participants.filter (fun p => ¬ (p.deleted = true ∧ p.id ∈ participants)) }

/-- The organisations have a primary key. -/
def perform : PlatformChange → TenantStore
  | .change (.organization (.create orgId name slug owner)) =>
    if s.orgs.any (fun org => org.id = orgId) then s
    else s.apply (.organization (.create orgId name slug owner))
  | .change change => s.apply change
  | .softDelete orgId eventId =>
    { s with
      events := s.events.map (fun e =>
        if e.id = eventId ∧ e.orgId = orgId then { e with deletedAt := some s.clock, status :=
          .closed }
        else e) }
  | .softDeleteAndScrub participantId =>
    { s with
      participants := s.participants.map (fun p =>
        if p.id = participantId then { p with deleted := true } else p) }
  | .storageReconcile cutoff participants => s.storageReconcile cutoff participants

/-- The organisation for which a recognition founds a person. -/
def foundsFor (faceId : String) (hit : Option String) (personId : String) : Option String := do
  let f ← s.face faceId
  let a ← s.asset f.assetId
  if (hit.bind (s.nearestPerson a.eventId)).isSome ∨
    s.persons.any (fun p => p.id = personId) then none
  else some a.orgId

/-- No live event and no person of the organisation is left. -/
def Emptied (orgId : String) : Prop :=
  (∀ event ∈ s.events, event.deletedAt = none → event.orgId ≠ orgId) ∧
    ∀ person ∈ s.persons, person.orgId ≠ orgId

/-- An organisation that is removed is empty, and what is created is of an open one. -/
def Shelters : PlatformChange → Prop
  | .change (.organization (.remove orgId)) => s.Emptied orgId
  | .change (.createEvent id orgId _ _) =>
    s.event id = none → (∃ org ∈ s.orgs, org.id = orgId) → s.Open orgId
  | .change (.recognize faceId hit personId) =>
    ∀ orgId, s.foundsFor faceId hit personId = some orgId → s.Open orgId
  | _ => True

end TenantStore

/-- No organisation, event or person is new, and no event is live again. -/
structure Shrinks (s s' : TenantStore) : Prop where
  orgs : s'.orgs = s.orgs
  ids : (s'.events.map EventRow.id).Sublist (s.events.map EventRow.id)
  events : ∀ e' ∈ s'.events, e'.deletedAt = none → ∃ e ∈ s.events, e.deletedAt = none ∧
    e.orgId = e'.orgId
  persons : ∀ p' ∈ s'.persons, ∃ p ∈ s.persons, p.orgId = p'.orgId

section Shrinking

variable {s s' s'' : TenantStore}

theorem Shrinks.of_same (horgs : s'.orgs = s.orgs) (hevents : s'.events = s.events)
    (hpersons : s'.persons = s.persons) : Shrinks s s' where
  orgs := horgs
  ids := by rw [hevents]
  events e he hlive := ⟨e, hevents ▸ he, hlive, rfl⟩
  persons p hp := ⟨p, hpersons ▸ hp, rfl⟩

theorem Shrinks.trans (h : Shrinks s s') (h' : Shrinks s' s'') : Shrinks s s'' where
  orgs := h'.orgs.trans h.orgs
  ids := h'.ids.trans h.ids
  events e he hlive := by
    obtain ⟨e', he', hlive', horg'⟩ := h'.events e he hlive
    obtain ⟨e'', he'', hlive'', horg''⟩ := h.events e' he' hlive'
    exact ⟨e'', he'', hlive'', horg''.trans horg'⟩
  persons p hp := by
    obtain ⟨p', hp', horg'⟩ := h'.persons p hp
    obtain ⟨p'', hp'', horg''⟩ := h.persons p' hp'
    exact ⟨p'', hp'', horg''.trans horg'⟩

/-- Events are changed in place, and none is live again. -/
theorem Shrinks.of_events {f : EventRow → EventRow} (horgs : s'.orgs = s.orgs)
    (hevents : s'.events = s.events.map f) (hpersons : s'.persons = s.persons)
    (hkept : ∀ e, (f e).id = e.id ∧ (f e).orgId = e.orgId ∧
    ((f e).deletedAt = none → e.deletedAt = none)) :
    Shrinks s s' where
  orgs := horgs
  ids := by
    rw [hevents, map_kept fun e => (hkept e).1]
  events e he hlive := by
    rw [hevents] at he
    obtain ⟨e', he', rfl⟩ := List.mem_map.mp he
    exact ⟨e', he', (hkept e').2.2 hlive, (hkept e').2.1.symm⟩
  persons p hp := ⟨p, hpersons ▸ hp, rfl⟩

theorem shrinks_deletePersons (s : TenantStore) (ids : List String) :
    Shrinks s (s.deletePersons ids) where
  orgs := rfl
  ids := .refl _
  events e he hlive := ⟨e, he, hlive, rfl⟩
  persons p hp := ⟨p, (List.mem_filter.mp hp).1, rfl⟩

theorem shrinks_deleteAssets (s : TenantStore) (gone : List String) :
    Shrinks s (s.deleteAssets gone) :=
  .of_events rfl rfl rfl fun _ => ⟨rfl, rfl, id⟩

theorem shrinks_removeEvent (s : TenantStore) (id : String) : Shrinks s (s.removeEvent id) where
  orgs := rfl
  ids := by
    simp only [TenantStore.removeEvent, List.map_map]
    exact List.filter_sublist.map EventRow.id
  events e he hlive := by
    obtain ⟨e', he', rfl⟩ := List.mem_map.mp he
    exact ⟨e', (List.mem_filter.mp he').1, hlive, rfl⟩
  persons p hp := ⟨p, (List.mem_filter.mp hp).1, rfl⟩

theorem shrinks_storageReconcile (s : TenantStore) (cutoff : Date) (participants : List String) :
    Shrinks s (s.storageReconcile cutoff participants) := by
  have hevents : ∀ (ids : List String) (s : TenantStore),
      Shrinks s (ids.foldl TenantStore.removeEvent s) := by
    intro ids
    induction ids with
    | nil => exact fun s => .of_same rfl rfl rfl
    | cons id ids ih => exact fun s => (shrinks_removeEvent s id).trans (ih _)
  exact ((shrinks_deleteAssets s _).trans (hevents _ _)).trans (.of_same rfl rfl rfl)

theorem shrinks_reassign (s : TenantStore) (ids : AssetFace → Bool) (personId : String) :
    Shrinks s (s.reassign ids personId) := .of_same rfl rfl rfl

theorem shrinks_merge (s : TenantStore) (eventId id : String) (ids : List String) :
    Shrinks s (s.merge eventId id ids) := by
  unfold TenantStore.merge
  dsimp only
  split
  · exact (shrinks_reassign s _ id).trans (shrinks_deletePersons _ _)
  · exact .of_same rfl rfl rfl

/-- What no longer exists needs no shelter. -/
theorem Shrinks.sheltered (h : Shrinks s s') (hs : s.Sheltered) : s'.Sheltered := by
  have hopen : ∀ {orgId}, s.Open orgId → s'.Open orgId := by
    rintro orgId ⟨org, horg, hid⟩
    exact ⟨org, h.orgs ▸ horg, hid⟩
  refine ⟨fun e he hlive => ?_, fun p hp => ?_⟩
  · obtain ⟨e', he', hlive', horg⟩ := h.events e he hlive
    exact hopen (horg ▸ hs.events e' he' hlive')
  · obtain ⟨p', hp', horg⟩ := h.persons p hp
    exact hopen (horg ▸ hs.persons p' hp')

end Shrinking

section Organizations

variable {w w' : OrgWorld} {change : OrgChange}

theorem bind_ok {ε α β : Type} {x : Except ε α} {f : α → Except ε β} {b : β} (h : x >>= f = .ok b) :
    ∃ a, x = .ok a ∧ f a = .ok b := by
  cases x with
  | error e => cases h
  | ok a => exact ⟨a, rfl, h⟩

theorem orgs_putMember (w : OrgWorld) (orgId userId : String) (role : Auth.OrgRole) :
    (w.putMember orgId userId role).orgs = w.orgs := by
  unfold OrgWorld.putMember
  split <;> rfl

theorem orgs_resolveUser {user : Auth.NewUser} {found : Auth.User}
    (h : w.resolveUser user = .ok (found, w')) : w'.orgs = w.orgs := by
  unfold OrgWorld.resolveUser at h
  split at h
  · cases h
    rfl
  · split at h
    · cases h
    · split at h
      · cases h
      · cases h
        rfl

/-- The rows of the organisations after a change: one is new, one is removed, or
they are there as before. -/
theorem apply_orgs (h : change.apply w = .ok w') :
    (∃ orgId name slug owner org, change = .create orgId name slug owner ∧ org.id = orgId ∧
        org.deleted = false ∧ w'.orgs = w.orgs ++ [org]) ∨
      (∃ orgId, change = .remove orgId ∧
        w'.orgs = w.orgs.map (fun org => if org.id = orgId then
          { org with deleted := true } else org)) ∨
      ((∀ orgId, change ≠ .remove orgId) ∧ ∃ f : Auth.Organization → Auth.Organization,
        (∀ org, (f org).id = org.id ∧ (f org).deleted = org.deleted) ∧ w'.orgs = w.orgs.map f) := by
  have hsame : w'.orgs = w.orgs → ∃ f : Auth.Organization → Auth.Organization,
      (∀ org, (f org).id = org.id ∧ (f org).deleted = org.deleted) ∧ w'.orgs = w.orgs.map f :=
    fun h => ⟨id, fun _ => ⟨rfl, rfl⟩, by rw [List.map_id, h]⟩
  cases change with
  | create orgId name slug owner =>
    simp only [OrgChange.apply, OrgWorld.create] at h
    split at h
    · cases h
    · obtain ⟨⟨user, w₁⟩, hresolve, h⟩ := bind_ok h
      dsimp only at h
      split at h
      · cases h
      · cases h
        refine .inl ⟨orgId, name, slug, owner,
          { id := orgId, plan := .starter, name := name, slug := slug },
          rfl, rfl, rfl, (orgs_putMember _ _ _ _).trans ?_⟩
        rw [← orgs_resolveUser hresolve]
  | update orgId dto =>
    simp only [OrgChange.apply, OrgWorld.update] at h
    obtain ⟨org, _, h⟩ := bind_ok h
    have hchanged : w' = w.changeOrg orgId (fun org =>
        { org with
          name := dto.name.getD org.name
          slug := dto.slug.getD org.slug
          status := dto.status.getD org.status }) := by
      split at h
      · split at h
        · split at h <;> cases h
          rfl
        · split at h <;> cases h
          rfl
      · cases h
        rfl
    refine .inr (.inr ⟨by simp, _, fun org => ?_, congrArg (fun w => w.orgs) hchanged⟩)
    split <;> exact ⟨rfl, rfl⟩
  | updatePlan orgId dto =>
    simp only [OrgChange.apply, OrgWorld.updatePlan] at h
    obtain ⟨before, _, h⟩ := bind_ok h
    split at h
    · cases h
    · cases h
      refine .inr (.inr ⟨by simp, _, fun org => ?_, rfl⟩)
      split
      · split <;> exact ⟨rfl, rfl⟩
      · exact ⟨rfl, rfl⟩
  | remove orgId =>
    obtain ⟨org, _, h⟩ := bind_ok h
    cases h
    exact .inr (.inl ⟨orgId, rfl, rfl⟩)
  | addMember orgId user role =>
    obtain ⟨org, _, h⟩ := bind_ok h
    obtain ⟨⟨found, w₁⟩, hresolve, h⟩ := bind_ok h
    cases h
    exact .inr (.inr ⟨by simp, hsame ((orgs_putMember _ _ _ _).trans (orgs_resolveUser hresolve))⟩)
  | updateMember orgId userId role =>
    simp only [OrgChange.apply, OrgWorld.updateMember] at h
    split at h
    · cases h
    · obtain ⟨_, _, h⟩ := bind_ok h
      cases h
      exact .inr (.inr ⟨by simp, hsame (orgs_putMember _ _ _ _)⟩)
  | removeMember orgId userId =>
    simp only [OrgChange.apply, OrgWorld.removeMember] at h
    split at h
    · cases h
    · obtain ⟨_, _, h⟩ := bind_ok h
      cases h
      exact .inr (.inr ⟨by simp, hsame rfl⟩)

end Organizations

section Steps

variable {s : TenantStore}

theorem open_iff_of_map {s' : TenantStore} {f : Auth.Organization → Auth.Organization}
    (hkept : ∀ org, (f org).id = org.id ∧ (f org).deleted = org.deleted)
    (horgs : s'.orgs = s.orgs.map f)
    {orgId : String} : s'.Open orgId ↔ s.Open orgId := by
  unfold TenantStore.Open
  rw [horgs]
  constructor
  · rintro ⟨_, hmem, hid, hlive⟩
    obtain ⟨org, horg, rfl⟩ := List.mem_map.mp hmem
    exact ⟨org, horg, (hkept org).1 ▸ hid, (hkept org).2 ▸ hlive⟩
  · rintro ⟨org, horg, hid, hlive⟩
    exact ⟨f org, List.mem_map_of_mem horg, (hkept org).1.trans hid, (hkept org).2.trans hlive⟩

/-- What a change of organisations does to their rows and to nothing else. -/
theorem perform_organization (s : TenantStore) (change : OrgChange) :
    let s' := s.perform (.change (.organization change))
    s'.events = s.events ∧ s'.persons = s.persons ∧
      ((s'.orgs = s.orgs ∧ ∀ orgId, change = .remove orgId → ¬ s.Open orgId) ∨
        (∃ orgId, change = .remove orgId ∧
          s'.orgs = s.orgs.map (fun org => if org.id = orgId then
            { org with deleted := true } else org)) ∨
        ((∀ orgId, change ≠ .remove orgId) ∧
          ((∃ org, (∀ org' ∈ s.orgs, org'.id ≠ org.id) ∧ s'.orgs = s.orgs ++ [org]) ∨
            ∃ f : Auth.Organization → Auth.Organization,
              (∀ org, (f org).id = org.id ∧ (f org).deleted = org.deleted) ∧
                s'.orgs = s.orgs.map f))) := by
  intro s'
  by_cases htaken : ∃ orgId name slug owner, change = .create orgId name slug owner ∧
      s.orgs.any (fun org => org.id = orgId)
  · obtain ⟨orgId, name, slug, owner, rfl, htaken⟩ := htaken
    rw [show s' = s from if_pos htaken]
    exact ⟨rfl, rfl, .inl ⟨rfl, by simp⟩⟩
  · have happly : s' = s.apply (.organization change) := by
      cases change with
      | create orgId name slug owner =>
        exact if_neg fun h => htaken ⟨orgId, name, slug, owner, rfl, h⟩
      | _ => rfl
    rw [happly]
    cases hchange : change.apply { toAuthStore := s.auth } with
    | error e =>
      have hsame : s.apply (.organization change) = s := by
        simp only [TenantStore.apply, hchange]
      rw [hsame]
      refine ⟨rfl, rfl, .inl ⟨rfl, ?_⟩⟩
      rintro orgId rfl ⟨org, horg, hid, hlive⟩
      have hthere : ∃ org, s.auth.getById orgId = some org :=
        Option.isSome_iff_exists.mp (List.find?_isSome.mpr ⟨org, horg, decide_eq_true ⟨hid, hlive⟩⟩)
      obtain ⟨org', hget⟩ := hthere
      simp only [OrgChange.apply, OrgWorld.remove, OrgWorld.get, hget] at hchange
      cases hchange
    | ok w =>
      have hdone : s.apply (.organization change) =
          { s with users := w.users, orgs := w.orgs, members := w.members } := by
        simp only [TenantStore.apply, hchange]
      rw [hdone]
      refine ⟨rfl, rfl, .inr ?_⟩
      rcases apply_orgs hchange with
        ⟨orgId, name, slug, owner, org, rfl, rfl, _, horgs⟩ | hremove | ⟨hother, hmap⟩
      · refine .inr ⟨by simp, .inl ⟨org, ?_, horgs⟩⟩
        intro org' horg' hid
        exact htaken ⟨org.id, name, slug, owner, rfl,
          List.any_eq_true.mpr ⟨org', horg', decide_eq_true hid⟩⟩
      · exact .inl hremove
      · exact .inr ⟨hother, .inr hmap⟩

theorem sheltered_of_open {s' : TenantStore} (hs : s.Sheltered) (hevents : s'.events = s.events)
    (hpersons : s'.persons = s.persons)
    (hopen : ∀ {orgId}, s.Open orgId → s'.Open orgId) : s'.Sheltered where
  events e he hlive := hopen (hs.events e (hevents ▸ he) hlive)
  persons p hp := hopen (hs.persons p (hpersons ▸ hp))

/-- With a removal the rows of the organisation need to be gone. -/
theorem sheltered_organization (hs : s.Sheltered) (change : OrgChange) :
    (s.perform (.change (.organization change))).Sheltered ↔
    s.Shelters (.change (.organization change)) := by
  obtain ⟨hevents, hpersons, hcases⟩ := perform_organization s change
  rcases hcases with ⟨horgs, hclosed⟩ | ⟨orgId, rfl, horgs⟩ | ⟨hother, hcases⟩
  · refine iff_of_true
      (sheltered_of_open hs hevents hpersons fun ⟨org, horg, h⟩ => ⟨org, horgs ▸ horg, h⟩) ?_
    cases change with
    | remove orgId =>
      refine ⟨fun e he hlive hid => hclosed orgId rfl (hid ▸ hs.events e he hlive),
        fun p hp hid => ?_⟩
      exact hclosed orgId rfl (hid ▸ hs.persons p hp)
    | _ => trivial
  · have hopen : ∀ {k}, (s.perform (.change (.organization (.remove orgId)))).Open k ↔
        s.Open k ∧ k ≠ orgId := by
      intro k
      unfold TenantStore.Open
      rw [horgs]
      constructor
      · rintro ⟨_, hmem, hid, hlive⟩
        obtain ⟨org, horg, rfl⟩ := List.mem_map.mp hmem
        split at hlive
        · cases hlive
        · next hne =>
          rw [if_neg hne] at hid
          exact ⟨⟨org, horg, hid, hlive⟩, hid ▸ hne⟩
      · rintro ⟨⟨org, horg, rfl, hlive⟩, hne⟩
        exact ⟨org, List.mem_map.mpr ⟨org, horg, if_neg hne⟩, rfl, hlive⟩
    constructor
    · intro h
      exact ⟨fun e he hlive => (hopen.mp (h.events e (hevents ▸ he) hlive)).2,
        fun p hp => (hopen.mp (h.persons p (hpersons ▸ hp))).2⟩
    · rintro ⟨hnone, hnobody⟩
      exact ⟨fun e he hlive => hopen.mpr ⟨hs.events e (hevents ▸ he) hlive,
        hnone e (hevents ▸ he) hlive⟩,
        fun p hp => hopen.mpr ⟨hs.persons p (hpersons ▸ hp), hnobody p (hpersons ▸ hp)⟩⟩
  · refine iff_of_true (sheltered_of_open hs hevents hpersons fun hopen => ?_) ?_
    · rcases hcases with ⟨new, _, horgs⟩ | ⟨f, hkept, horgs⟩
      · obtain ⟨org, horg, h⟩ := hopen
        exact ⟨org, horgs ▸ List.mem_append_left _ horg, h⟩
      · exact (open_iff_of_map hkept horgs).mpr hopen
    · cases change with
      | remove orgId => exact absurd rfl (hother orgId)
      | _ => trivial

theorem sheltered_createEvent (hs : s.Sheltered) (id orgId name slug : String) :
    (s.apply (.createEvent id orgId name slug)).Sheltered ↔
      s.Shelters (.change (.createEvent id orgId name slug)) := by
  rw [TenantStore.apply]
  split
  · next hnot =>
    refine iff_of_true hs fun hnew hthere => ?_
    obtain ⟨org, horg, hid⟩ := hthere
    rcases hnot with htaken | hnone
    · rw [hnew] at htaken
      cases htaken
    · exact absurd (List.any_eq_true.mpr ⟨org, horg, decide_eq_true hid⟩) hnone
  · next hcreated =>
    obtain ⟨hnew, hthere⟩ := not_or.mp hcreated
    constructor
    · intro h _ _
      exact h.events _ (List.mem_append_right _ (List.mem_singleton_self _)) rfl
    · intro h
      obtain ⟨org, horg, hid⟩ := List.any_eq_true.mp (not_not.mp hthere)
      have hopen := h (Option.not_isSome_iff_eq_none.mp hnew) ⟨org, horg, of_decide_eq_true hid⟩
      refine ⟨fun e he hlive => ?_, hs.persons⟩
      rcases List.mem_append.mp he with he | he
      · exact hs.events e he hlive
      · rw [List.mem_singleton.mp he]
        exact hopen

theorem sheltered_recognize (hs : s.Sheltered) (faceId : String) (hit : Option String)
    (personId : String) :
    (s.apply (.recognize faceId hit personId)).Sheltered ↔
      s.Shelters (.change (.recognize faceId hit personId)) := by
  have hsame : ∀ {s'}, Shrinks s s' → s.foundsFor faceId hit personId = none → (s'.Sheltered ↔
      ∀ orgId, s.foundsFor faceId hit personId = some orgId → s.Open orgId) := by
    intro s' h hnone
    refine iff_of_true (h.sheltered hs) fun orgId hfound => ?_
    rw [hnone] at hfound
    cases hfound
  change (s.recognize faceId hit personId).Sheltered ↔ ∀ orgId, _
  cases hface : s.face faceId with
  | none =>
    rw [TenantStore.recognize, hface]
    exact hsame (.of_same rfl rfl rfl) (by simp [TenantStore.foundsFor, hface])
  | some f =>
    cases hasset : s.asset f.assetId with
    | none =>
      simp only [TenantStore.recognize, hface, hasset]
      exact hsame (.of_same rfl rfl rfl) (by simp [TenantStore.foundsFor, hface, hasset])
    | some a =>
      cases hnear : hit.bind (s.nearestPerson a.eventId) with
      | some found =>
        simp only [TenantStore.recognize, hface, hasset, hnear]
        exact hsame (shrinks_reassign s _ _) (by simp [TenantStore.foundsFor, hface, hasset, hnear])
      | none =>
        simp only [TenantStore.recognize, hface, hasset, hnear]
        split
        · next htaken =>
          have hthere : ∃ p ∈ s.persons, p.id = personId := by simpa using htaken
          exact hsame (.of_same rfl rfl rfl) (by simp [TenantStore.foundsFor, hface, hthere])
        · next hnew =>
          have habsent : ¬ ∃ p ∈ s.persons, p.id = personId := by simpa using hnew
          have hfounds : s.foundsFor faceId hit personId = some a.orgId := by
            simp [TenantStore.foundsFor, hface, hasset, hnear, habsent]
          rw [hfounds]
          constructor
          · rintro h orgId ⟨rfl⟩
            exact h.persons _ (List.mem_append_right _ (List.mem_singleton_self _))
          · intro h
            refine ⟨hs.events, fun p hp => ?_⟩
            rcases List.mem_append.mp hp with hp | hp
            · exact hs.persons p hp
            · rw [List.mem_singleton.mp hp]
              exact h a.orgId rfl

/-- The changes that may add an organisation, an event or a person. -/
def Change.Creates : Change → Prop
  | .organization _ | .createEvent _ _ _ _ | .recognize _ _ _ => True
  | _ => False

theorem shrinks_apply (s : TenantStore) {change : Change} (h : ¬ change.Creates) :
    Shrinks s (s.apply change) := by
  cases change with
  | organization | createEvent | recognize => exact absurd trivial h
  | createUser user =>
    rw [TenantStore.apply]
    split <;> exact .of_same rfl rfl rfl
  | openSession session =>
    rw [TenantStore.apply]
    split <;> exact .of_same rfl rfl rfl
  | submitSelfie participant =>
    rw [TenantStore.apply]
    split <;> exact .of_same rfl rfl rfl
  | updateEvent id dto =>
    refine .of_events rfl rfl rfl fun e => ?_
    split
    · exact ⟨rfl, rfl, fun h => h⟩
    · exact ⟨rfl, rfl, fun h => h⟩
  | setCover eventId assetId =>
    rw [TenantStore.apply]
    split
    · refine .of_events rfl rfl rfl fun e => ?_
      split
      · exact ⟨rfl, rfl, fun h => h⟩
      · exact ⟨rfl, rfl, fun h => h⟩
    · exact .of_same rfl rfl rfl
  | removeEvent id => exact shrinks_removeEvent s id
  | createAsset id eventId type originalFilename storageKey fileSize =>
    rw [TenantStore.apply]
    split
    · exact .of_same rfl rfl rfl
    · split <;> exact .of_same rfl rfl rfl
  | upsertFile file =>
    rw [TenantStore.apply]
    split
    · unfold TenantStore.upsertFile
      split <;> exact .of_same rfl rfl rfl
    · exact .of_same rfl rfl rfl
  | upsertExif exif =>
    rw [TenantStore.apply]
    split
    · unfold TenantStore.upsertExif
      split <;> exact .of_same rfl rfl rfl
    · exact .of_same rfl rfl rfl
  | addFace id assetId =>
    rw [TenantStore.apply]
    split <;> exact .of_same rfl rfl rfl
  | updatePerson eventId id dto =>
    refine ⟨rfl, .refl _, fun e he hlive => ⟨e, he, hlive, rfl⟩, fun p hp => ?_⟩
    obtain ⟨p', hp', rfl⟩ := List.mem_map.mp hp
    refine ⟨p', hp', ?_⟩
    split <;> rfl
  | merge eventId id ids => exact shrinks_merge s eventId id ids
  | deletePersons ids => exact shrinks_deletePersons s ids
  | upsertAccount account =>
    simp only [TenantStore.apply, TenantStore.upsertAccount]
    split
    · exact .of_same rfl rfl rfl
    · split <;> exact .of_same rfl rfl rfl
  | _ => exact .of_same rfl rfl rfl

theorem shrinks_perform (s : TenantStore) {c : PlatformChange}
    (h : ∀ change, c = .change change → ¬ change.Creates) : Shrinks s (s.perform c) := by
  cases c with
  | change change =>
    have hshrinks := shrinks_apply s (h change rfl)
    cases change with
    | organization => exact absurd trivial (h _ rfl)
    | _ => exact hshrinks
  | softDelete orgId eventId =>
    refine .of_events rfl rfl rfl fun e => ?_
    split
    · exact ⟨rfl, rfl, fun h => nomatch h⟩
    · exact ⟨rfl, rfl, fun h => h⟩
  | softDeleteAndScrub participantId => exact .of_same rfl rfl rfl
  | storageReconcile cutoff participants => exact shrinks_storageReconcile s cutoff participants

/-- A change leaves everything sheltered exactly where it shelters what it creates. -/
theorem sheltered_perform (hs : s.Sheltered) (c : PlatformChange) :
    (s.perform c).Sheltered ↔ s.Shelters c := by
  cases c with
  | change change =>
    cases change with
    | organization change => exact sheltered_organization hs change
    | createEvent id orgId name slug => exact sheltered_createEvent hs id orgId name slug
    | recognize faceId hit personId => exact sheltered_recognize hs faceId hit personId
    | _ =>
      refine iff_of_true (Shrinks.sheltered (shrinks_perform s ?_) hs) trivial
      rintro _ ⟨rfl⟩ h
      exact h
  | _ =>
    refine iff_of_true (Shrinks.sheltered (shrinks_perform s ?_) hs) trivial
    rintro _ ⟨⟩

theorem nodup_new {α : Type} {rows : List α} {key : α → String} {row : α}
    (hkeys : (rows.map key).Nodup)
    (hfresh : ∀ other ∈ rows, key other ≠ key row) : ((rows ++ [row]).map key).Nodup := by
  rw [List.map_append]
  refine List.nodup_append.mpr ⟨hkeys, List.nodup_singleton _, fun i hi j hj hij => ?_⟩
  obtain ⟨other, hother, rfl⟩ := List.mem_map.mp hi
  exact hfresh other hother (hij.trans (List.mem_singleton.mp hj))

theorem recognize_kept (s : TenantStore) (faceId : String) (hit : Option String)
    (personId : String) :
    (s.recognize faceId hit personId).orgs = s.orgs ∧
      (s.recognize faceId hit personId).events = s.events := by
  unfold TenantStore.recognize
  split
  · exact ⟨rfl, rfl⟩
  · split
    · exact ⟨rfl, rfl⟩
    · split
      · exact ⟨rfl, rfl⟩
      · split <;> exact ⟨rfl, rfl⟩

/-- The keys of the organisations and of the events stay unique. -/
theorem nodup_perform (c : PlatformChange) (horgs : (s.orgs.map (fun org => org.id)).Nodup)
    (hevents : (s.events.map EventRow.id).Nodup) :
    ((s.perform c).orgs.map (fun org => org.id)).Nodup ∧
    ((s.perform c).events.map EventRow.id).Nodup := by
  have hshrinks : ∀ {s'}, Shrinks s s' →
      (s'.orgs.map (fun org => org.id)).Nodup ∧ (s'.events.map EventRow.id).Nodup :=
    fun h => ⟨by rw [h.orgs]; exact horgs, hevents.sublist h.ids⟩
  by_cases hcreates : ∃ change, c = .change change ∧ change.Creates
  · obtain ⟨change, rfl, hcreates⟩ := hcreates
    cases change with
    | organization change =>
      obtain ⟨hevents', _, hcases⟩ := perform_organization s change
      refine ⟨?_, by rw [hevents']; exact hevents⟩
      rcases hcases with ⟨hsame, _⟩ | ⟨orgId, _, hmap⟩ | ⟨_, ⟨org, hfresh, hnew⟩ | ⟨f, hkept, hmap⟩⟩
      · rw [hsame]
        exact horgs
      · rw [hmap, map_kept fun org => by split <;> rfl]
        exact horgs
      · rw [hnew]
        exact nodup_new horgs hfresh
      · rw [hmap, map_kept fun org => (hkept org).1]
        exact horgs
    | createEvent id orgId name slug =>
      change ((s.apply _).orgs.map _).Nodup ∧ ((s.apply _).events.map _).Nodup
      rw [TenantStore.apply]
      split
      · exact ⟨horgs, hevents⟩
      · next hcreated =>
        refine ⟨horgs, nodup_new hevents fun e he hid => ?_⟩
        have hnone := Option.not_isSome_iff_eq_none.mp fun h => hcreated (.inl h)
        exact List.find?_eq_none.mp hnone e he (decide_eq_true hid)
    | recognize faceId hit personId =>
      obtain ⟨horgs', hevents'⟩ := recognize_kept s faceId hit personId
      change ((s.recognize _ _ _).orgs.map _).Nodup ∧ ((s.recognize _ _ _).events.map _).Nodup
      rw [horgs', hevents']
      exact ⟨horgs, hevents⟩
    | _ => cases hcreates
  · exact hshrinks (shrinks_perform s fun change hc h => hcreates ⟨change, hc, h⟩)

end Steps

namespace Database

def step (db : Database) (c : PlatformChange) : Database :=
  { db with
    toTenantStore := db.perform c
    eventIds := (nodup_perform c db.orgIds db.eventIds).2
    orgIds := (nodup_perform c db.orgIds db.eventIds).1 }

/-- The state after these changes. -/
def after (db : Database) (changes : List PlatformChange) : Database := changes.foldl step db

theorem sheltered_throughout {db : Database} (hstart : db.Sheltered)
    (changes : List PlatformChange) :
    (∀ n, (db.after (changes.take n)).Sheltered) ↔
      ∀ n c, changes[n]? = some c → (db.after (changes.take n)).Shelters c := by
  induction changes generalizing db with
  | nil =>
    refine iff_of_true (fun n => ?_) fun n c h => ?_
    · rw [List.take_nil]
      exact hstart
    · cases h
  | cons c changes ih =>
    have hstep : (db.step c).Sheltered ↔ db.Shelters c := sheltered_perform hstart c
    constructor
    · intro h
      have hnext : (db.step c).Sheltered := h 1
      intro n c' hc'
      cases n with
      | zero => exact Option.some.inj hc' ▸ hstep.mp hnext
      | succ n => exact (ih hnext).mp (fun m => h (m + 1)) n c' hc'
    · intro h n
      have hnext : (db.step c).Sheltered := hstep.mpr (h 0 c rfl)
      cases n with
      | zero => exact hstart
      | succ n => exact (ih hnext).mpr (fun m c' hc' => h (m + 1) c' hc') n

/-- From tables whose totals add up, they add up in every state of a run exactly
where an organisation is removed only when it holds no live event and no person,
and each event and person is created for one that is not removed. -/
theorem addsUp_throughout_iff {db : Database} (hstart : db.getStats.AddsUp)
    (changes : List PlatformChange) :
    (∀ n, (db.after (changes.take n)).getStats.AddsUp) ↔
      ∀ n c, changes[n]? = some c → (db.after (changes.take n)).Shelters c := by
  simp only [addsUp_iff]
  exact sheltered_throughout (addsUp_iff.mp hstart) changes

def blank : Database where
  events := []
  orgs := []
  eventIds := List.nodup_nil
  orgIds := List.nodup_nil

theorem addsUp_blank : blank.getStats.AddsUp :=
  addsUp_iff.mpr ⟨fun _ h => absurd h List.not_mem_nil, fun _ h => absurd h List.not_mem_nil⟩

def ann : Auth.NewUser := { id := "ann", email := "ann@studio", password := some "" }

def opening : List PlatformChange :=
  [.change (.organization (.create "studio" "Studio" "studio" ann)),
    .change (.createEvent "party" "studio" "Party" "party")]

/-- The studio is removed with its event, or after it. -/
def closing : List PlatformChange := opening ++ [.change (.organization (.remove "studio"))]

def clearing : List PlatformChange :=
  opening ++ [.change (.removeEvent "party"), .change (.organization (.remove "studio"))]

theorem addsUp_clearing : (blank.after (clearing.take 2)).getStats.AddsUp ∧
    (blank.after (clearing.take 3)).getStats.AddsUp ∧ (blank.after clearing).getStats.AddsUp := by
  have hshelters : ∀ n c, clearing[n]? = some c → (blank.after (clearing.take n)).Shelters c := by
    intro n c hc
    rcases n with _ | _ | _ | _ | n
    · obtain rfl := Option.some.inj hc
      trivial
    · obtain rfl := Option.some.inj hc
      exact fun _ _ => ⟨_, List.mem_singleton_self _, rfl, rfl⟩
    · obtain rfl := Option.some.inj hc
      trivial
    · obtain rfl := Option.some.inj hc
      exact ⟨fun _ h => absurd h List.not_mem_nil, fun _ h => absurd h List.not_mem_nil⟩
    · cases hc
  have hall := (addsUp_throughout_iff addsUp_blank clearing).mpr hshelters
  exact ⟨hall 2, hall 3, hall 4⟩

/-- The event of the removed studio is counted in the totals and in no row. -/
theorem not_addsUp_throughout :
    ¬ ∀ (db : Database) (changes : List PlatformChange), db.getStats.AddsUp →
    (db.after changes).getStats.AddsUp := by
  intro h
  have hevents := (h blank closing addsUp_blank).events
  revert hevents
  decide

end Database

end EventLens.Tenants
