import EventLens.TenantRecord

/-!
What stays true of the tenants' tables over any changes. Assets and persons are
of the organisation of their event, and the faces of a person lie on assets of
the person's event. Covers keep to their organisation as long as no request sets
one from another.
-/

namespace EventLens.Tenants

/-- The ids, events and organisations of the rows, and what they refer to. -/
structure Links where
  events : List (String × String)
  assets : List (String × String × String)
  persons : List (String × String × String)
  faceIds : List String
  faces : List (String × Option String)
  covers : List (String × Option String)

def TenantStore.links (s : TenantStore) : Links where
  events := s.events.map (fun e => (e.id, e.orgId))
  assets := s.assets.map (fun a => (a.id, a.eventId, a.orgId))
  persons := s.persons.map (fun p => (p.id, p.eventId, p.orgId))
  faceIds := s.faces.map AssetFace.id
  faces := s.faces.map (fun f => (f.assetId, f.personId))
  covers := s.events.map (fun e => (e.orgId, e.coverAssetId))

structure Links.Sound (l : Links) : Prop where
  eventIds : (l.events.map Prod.fst).Nodup
  assetIds : (l.assets.map Prod.fst).Nodup
  personIds : (l.persons.map Prod.fst).Nodup
  faceIds : l.faceIds.Nodup
  assetOrgs : ∀ id eventId orgId, (id, eventId, orgId) ∈ l.assets → (eventId, orgId) ∈ l.events
  personOrgs : ∀ id eventId orgId, (id, eventId, orgId) ∈ l.persons → (eventId, orgId) ∈ l.events
  facePersons : ∀ assetId personId, (assetId, some personId) ∈ l.faces →
    ∃ eventId orgId, (personId, eventId, orgId) ∈ l.persons ∧ (assetId, eventId, orgId) ∈ l.assets
  covers : ∀ orgId assetId, (orgId, some assetId) ∈ l.covers →
    ∃ eventId, (assetId, eventId, orgId) ∈ l.assets

/-- A cover is set from the event's own organisation. -/
def OwnCover (s : TenantStore) : Change → Prop
  | .setCover eventId (some assetId) =>
    ∀ e ∈ s.events, e.id = eventId → ∀ a ∈ s.assets, a.id = assetId → a.orgId = e.orgId
  | _ => True

def OwnCovers : TenantStore → List Change → Prop
  | _, [] => True
  | s, change :: changes => OwnCover s change ∧ OwnCovers (s.apply change) changes

section Changes

variable {s : TenantStore}

theorem unique_row {α : Type} {rows : List (String × α)} (hids : (rows.map Prod.fst).Nodup)
    {i : String}
    {a b : α} (ha : (i, a) ∈ rows) (hb : (i, b) ∈ rows) : a = b :=
  congrArg Prod.snd (List.inj_on_of_nodup_map hids ha hb rfl)

theorem asset_mem {id : String} {a : Asset} (h : s.asset id = some a) : a ∈ s.assets ∧ a.id = id :=
  ⟨List.mem_of_find?_eq_some h, by simpa using List.find?_some h⟩

theorem event_mem {id : String} {e : EventRow} (h : s.event id = some e) :
    e ∈ s.events ∧ e.id = id :=
  ⟨List.mem_of_find?_eq_some h, by simpa using List.find?_some h⟩

theorem face_mem {id : String} {f : AssetFace} (h : s.face id = some f) : f ∈ s.faces ∧ f.id = id :=
  ⟨List.mem_of_find?_eq_some h, by simpa using List.find?_some h⟩

theorem getPerson_mem {eventId id : String} {p : Person} (h : s.getPerson eventId id = some p) :
    p ∈ s.persons ∧ p.id = id ∧ p.eventId = eventId :=
  ⟨List.mem_of_find?_eq_some h, by simpa using List.find?_some h⟩

theorem asset_link {a : Asset} (ha : a ∈ s.assets) : (a.id, a.eventId, a.orgId) ∈ s.links.assets :=
  List.mem_map_of_mem (f := fun a : Asset => (a.id, a.eventId, a.orgId)) ha

theorem event_link {e : EventRow} (he : e ∈ s.events) : (e.id, e.orgId) ∈ s.links.events :=
  List.mem_map_of_mem (f := fun e : EventRow => (e.id, e.orgId)) he

theorem person_link {p : Person} (hp : p ∈ s.persons) :
    (p.id, p.eventId, p.orgId) ∈ s.links.persons :=
  List.mem_map_of_mem (f := fun p : Person => (p.id, p.eventId, p.orgId)) hp

theorem face_link {f : AssetFace} (hf : f ∈ s.faces) : (f.assetId, f.personId) ∈ s.links.faces :=
  List.mem_map_of_mem (f := fun f : AssetFace => (f.assetId, f.personId)) hf

theorem map_kept {ρ α : Type} {g : ρ → α} {f : ρ → ρ} (hg : ∀ r, g (f r) = g r) (rows : List ρ) :
    (rows.map f).map g = rows.map g := by
  rw [List.map_map]
  exact List.map_congr_left fun r _ => hg r

theorem nodup_snoc {α : Type} {rows : List (String × α)} (hids : (rows.map Prod.fst).Nodup)
    {id : String}
    {a : α} (hfresh : ∀ r ∈ rows, r.1 ≠ id) : ((rows ++ [(id, a)]).map Prod.fst).Nodup := by
  rw [List.map_append]
  refine List.nodup_append.mpr ⟨hids, List.nodup_singleton _, fun i hi j hj hij => ?_⟩
  obtain ⟨r, hr, rfl⟩ := List.mem_map.mp hi
  exact hfresh r hr (hij.trans (List.mem_singleton.mp hj))

/-- Faces go, or are given persons of their asset's event. -/
theorem sound_faces (h : s.links.Sound) {faces : List AssetFace}
    (hids : (faces.map AssetFace.id).Nodup)
    (hpersons : ∀ f ∈ faces, ∀ id ∈ f.personId, (f.assetId, some id) ∈ s.links.faces ∨
      ∃ eventId orgId, (id, eventId, orgId) ∈ s.links.persons ∧
      (f.assetId, eventId, orgId) ∈ s.links.assets) :
    TenantStore.links { s with faces := faces } |>.Sound := by
  refine { h with faceIds := hids, facePersons := fun assetId personId hface => ?_ }
  obtain ⟨f, hf, heq⟩ := List.mem_map.mp hface
  obtain ⟨rfl, hperson⟩ := Prod.mk.inj heq
  rcases hpersons f hf personId hperson with hold | hnew
  · exact h.facePersons _ _ hold
  · exact hnew

theorem sound_createEvent (h : s.links.Sound) {e : EventRow} (hfresh : s.event e.id = none)
    (hcover : e.coverAssetId = none) :
    (TenantStore.links { s with events := s.events ++ [e] }).Sound := by
  have hevents : (TenantStore.links { s with events := s.events ++ [e] }).events =
      s.links.events ++ [(e.id, e.orgId)] := List.map_append
  refine ⟨?_, h.assetIds, h.personIds, h.faceIds, fun id eventId orgId ha => ?_,
    fun id eventId orgId hp => ?_, h.facePersons, fun orgId assetId hmem => ?_⟩
  · rw [hevents]
    refine nodup_snoc h.eventIds fun r hr => ?_
    obtain ⟨old, hold, rfl⟩ := List.mem_map.mp hr
    exact by simpa using List.find?_eq_none.mp hfresh old hold
  · rw [hevents]
    exact List.mem_append_left _ (h.assetOrgs id eventId orgId ha)
  · rw [hevents]
    exact List.mem_append_left _ (h.personOrgs id eventId orgId hp)
  · have hcovers : (TenantStore.links { s with events := s.events ++ [e] }).covers =
        s.links.covers ++ [(e.orgId, e.coverAssetId)] := List.map_append
    rw [hcovers, hcover] at hmem
    rcases List.mem_append.mp hmem with hmem | hmem
    · exact h.covers orgId assetId hmem
    · cases List.mem_singleton.mp hmem

theorem sound_createAsset (h : s.links.Sound) {a : Asset} (hfresh : s.asset a.id = none)
    {e : EventRow} (he : s.event a.eventId = some e) (horg : a.orgId = e.orgId) :
    (TenantStore.links { s with assets := s.assets ++ [a] }).Sound := by
  obtain ⟨hmem, hid⟩ := event_mem he
  have hassets : (TenantStore.links { s with assets := s.assets ++ [a] }).assets =
      s.links.assets ++ [(a.id, a.eventId, a.orgId)] := List.map_append
  refine ⟨h.eventIds, ?_, h.personIds, h.faceIds, fun id eventId orgId hlink => ?_, h.personOrgs,
    fun assetId personId hf => ?_, fun orgId assetId hcover => ?_⟩
  · rw [hassets]
    refine nodup_snoc h.assetIds fun r hr => ?_
    obtain ⟨old, hold, rfl⟩ := List.mem_map.mp hr
    exact by simpa using List.find?_eq_none.mp hfresh old hold
  · rw [hassets] at hlink
    rcases List.mem_append.mp hlink with hlink | hlink
    · exact h.assetOrgs id eventId orgId hlink
    · cases List.mem_singleton.mp hlink
      rw [← hid, horg]
      exact event_link hmem
  · obtain ⟨eventId, orgId, hp, ha⟩ := h.facePersons assetId personId hf
    exact ⟨eventId, orgId, hp, hassets ▸ List.mem_append_left _ ha⟩
  · obtain ⟨eventId, ha⟩ := h.covers orgId assetId hcover
    exact ⟨eventId, hassets ▸ List.mem_append_left _ ha⟩

theorem sound_setCover (h : s.links.Sound) {eventId : String} {assetId : Option String}
    (hown : OwnCover s (.setCover eventId assetId)) :
    (s.apply (.setCover eventId assetId)).links.Sound := by
  rw [TenantStore.apply]
  split
  · rename_i hthere
    have hevents : (TenantStore.links { s with events := s.events.map (fun e =>
        if e.id = eventId ∧ s.getOrgId eventId = some e.orgId then { e with coverAssetId :=
          assetId }
        else e) }).events = s.links.events := by
      refine map_kept (fun e => ?_) s.events
      split
      · rfl
      · rfl
    refine ⟨hevents ▸ h.eventIds, h.assetIds, h.personIds, h.faceIds, fun id v o ha => ?_,
      fun id v o hp => ?_, h.facePersons, fun orgId id hcover => ?_⟩
    · rw [hevents]
      exact h.assetOrgs id v o ha
    · rw [hevents]
      exact h.personOrgs id v o hp
    · obtain ⟨after, hafter, heq⟩ := List.mem_map.mp hcover
      obtain ⟨e, he, rfl⟩ := List.mem_map.mp hafter
      split at heq
      · rename_i hpicked
        cases heq
        obtain ⟨a, ha⟩ := Option.isSome_iff_exists.mp hthere
        obtain ⟨hmem, hid⟩ := asset_mem ha
        refine ⟨a.eventId, ?_⟩
        rw [← hown e he hpicked.1 a hmem hid, ← hid]
        exact asset_link hmem
      · exact h.covers orgId id (List.mem_map.mpr ⟨e, he, heq⟩)
  · exact h

theorem sound_removeEvent (h : s.links.Sound) (id : String) : (s.removeEvent id).links.Sound := by
  have hgone : ∀ {assetId eventId orgId}, (assetId, eventId, orgId) ∈ s.links.assets →
      assetId ∉ (s.assets.filter (fun a => a.eventId = id)).map (fun a => a.id) →
        (assetId, eventId, orgId) ∈ (s.removeEvent id).links.assets ∧ eventId ≠ id := by
    intro assetId eventId orgId ha hkept
    obtain ⟨a, hmem, heq⟩ := List.mem_map.mp ha
    cases heq
    have hne : a.eventId ≠ id := fun hevent => hkept (List.mem_map.mpr
      ⟨a, List.mem_filter.mpr ⟨hmem, decide_eq_true hevent⟩, rfl⟩)
    exact ⟨List.mem_map.mpr ⟨a, List.mem_filter.mpr ⟨hmem, decide_eq_true hne⟩, rfl⟩, hne⟩
  have hevents : (s.removeEvent id).links.events =
      (s.events.filter (fun e => e.id ≠ id)).map (fun e => (e.id, e.orgId)) := by
    refine map_kept (fun e => ?_) _
    rfl
  have hkeep : ∀ {eventId orgId}, (eventId, orgId) ∈ s.links.events → eventId ≠ id →
      (eventId, orgId) ∈ (s.removeEvent id).links.events := by
    intro eventId orgId he hne
    obtain ⟨e, hmem, heq⟩ := List.mem_map.mp he
    cases heq
    rw [hevents]
    exact List.mem_map.mpr ⟨e, List.mem_filter.mpr ⟨hmem, decide_eq_true hne⟩, rfl⟩
  refine ⟨?_, h.assetIds.sublist ((List.filter_sublist.map _).map _),
    h.personIds.sublist ((List.filter_sublist.map _).map _),
      h.faceIds.sublist (List.filter_sublist.map _),
    fun assetId eventId orgId ha => ?_, fun personId eventId orgId hp =>
      ?_, fun assetId personId hf => ?_, fun orgId assetId hcover => ?_⟩
  · rw [hevents]
    exact h.eventIds.sublist ((List.filter_sublist.map _).map _)
  · obtain ⟨a, hmem, heq⟩ := List.mem_map.mp ha
    cases heq
    obtain ⟨hmem, hne⟩ := List.mem_filter.mp hmem
    exact hkeep (h.assetOrgs _ _ _ (asset_link hmem)) (of_decide_eq_true hne)
  · obtain ⟨p, hmem, heq⟩ := List.mem_map.mp hp
    cases heq
    obtain ⟨hmem, hne⟩ := List.mem_filter.mp hmem
    exact hkeep (h.personOrgs _ _ _ (person_link hmem)) (of_decide_eq_true hne)
  · obtain ⟨f, hmem, heq⟩ := List.mem_map.mp hf
    obtain ⟨rfl, hperson⟩ := Prod.mk.inj heq
    obtain ⟨hmem, hkept⟩ := List.mem_filter.mp hmem
    obtain ⟨eventId, orgId, hp, ha⟩ := h.facePersons f.assetId personId (hperson ▸ face_link hmem)
    obtain ⟨ha', hne⟩ := hgone ha (of_decide_eq_true hkept)
    refine ⟨eventId, orgId, ?_, ha'⟩
    obtain ⟨p, hpmem, heq⟩ := List.mem_map.mp hp
    cases heq
    exact List.mem_map.mpr ⟨p, List.mem_filter.mpr ⟨hpmem, decide_eq_true hne⟩, rfl⟩
  · obtain ⟨after, hafter, heq⟩ := List.mem_map.mp hcover
    obtain ⟨e, he, rfl⟩ := List.mem_map.mp hafter
    obtain ⟨hmem, -⟩ := List.mem_filter.mp he
    obtain ⟨rfl, hfiltered⟩ := Prod.mk.inj heq
    obtain ⟨hassetId, hkept⟩ := Option.mem_filter_iff.mp hfiltered
    have hlink : (e.orgId, some assetId) ∈ s.links.covers :=
      List.mem_map.mpr ⟨e, hmem, by rw [hassetId]⟩
    obtain ⟨eventId, ha⟩ := h.covers e.orgId assetId hlink
    exact ⟨eventId, (hgone ha (of_decide_eq_true hkept)).1⟩

theorem sound_deletePersons (h : s.links.Sound) (ids : List String) :
    (s.deletePersons ids).links.Sound := by
  have hids : (s.deletePersons ids).links.faceIds = s.links.faceIds := by
    refine map_kept (fun f => ?_) s.faces
    rfl
  refine ⟨h.eventIds, h.assetIds, h.personIds.sublist ((List.filter_sublist.map _).map _),
    hids ▸ h.faceIds, h.assetOrgs, fun id eventId orgId hp => ?_, fun assetId personId hf =>
      ?_, h.covers⟩
  · obtain ⟨p, hmem, heq⟩ := List.mem_map.mp hp
    cases heq
    exact h.personOrgs _ _ _ (person_link (List.mem_filter.mp hmem).1)
  · obtain ⟨after, hafter, heq⟩ := List.mem_map.mp hf
    obtain ⟨f, hmem, rfl⟩ := List.mem_map.mp hafter
    obtain ⟨rfl, hfiltered⟩ := Prod.mk.inj heq
    obtain ⟨hperson, hkept⟩ := Option.mem_filter_iff.mp hfiltered
    obtain ⟨eventId, orgId, hp, ha⟩ := h.facePersons f.assetId personId (hperson ▸ face_link hmem)
    refine ⟨eventId, orgId, ?_, ha⟩
    obtain ⟨p, hpmem, heq⟩ := List.mem_map.mp hp
    cases heq
    exact List.mem_map.mpr ⟨p, List.mem_filter.mpr ⟨hpmem, hkept⟩, rfl⟩

/-- Faces join a person of their asset's event. -/
theorem sound_reassign (h : s.links.Sound) {ids : AssetFace → Bool} {personId : String}
    (hevent : ∀ f ∈ s.faces, ids f = true → ∃ eventId orgId,
      (personId, eventId, orgId) ∈ s.links.persons ∧ (f.assetId, eventId, orgId) ∈ s.links.assets) :
    (s.reassign ids personId).links.Sound := by
  have hids :
    ((s.faces.map (fun f => if ids f then { f with personId := some personId } else f)).map
      AssetFace.id) = s.faces.map AssetFace.id := by
    refine map_kept (fun f => ?_) s.faces
    split
    · rfl
    · rfl
  refine sound_faces h (hids ▸ h.faceIds) fun f hf id hid => ?_
  obtain ⟨before, hmem, rfl⟩ := List.mem_map.mp hf
  split at hid
  · rename_i hpicked
    cases hid
    rw [if_pos hpicked]
    exact .inr (hevent before hmem hpicked)
  · rename_i hnot
    rw [if_neg hnot]
    exact .inl (hid ▸ face_link hmem)

theorem sound_foundPerson (h : s.links.Sound) {a : Asset} (ha : a ∈ s.assets) {p : Person}
    (hfresh : ¬ s.persons.any (fun q => q.id = p.id) = true)
    (hp : p.eventId = a.eventId ∧ p.orgId = a.orgId) :
    (TenantStore.links { s with persons := s.persons ++ [p] }).Sound := by
  have hpersons : (TenantStore.links { s with persons := s.persons ++ [p] }).persons =
      s.links.persons ++ [(p.id, p.eventId, p.orgId)] := List.map_append
  refine { h with personIds := ?_, personOrgs := fun id eventId orgId hlink => ?_,
                  facePersons := fun assetId personId hf => ?_ }
  · rw [hpersons]
    refine nodup_snoc h.personIds fun r hr hid => hfresh ?_
    obtain ⟨q, hq, rfl⟩ := List.mem_map.mp hr
    exact List.any_eq_true.mpr ⟨q, hq, decide_eq_true hid⟩
  · rw [hpersons] at hlink
    rcases List.mem_append.mp hlink with hlink | hlink
    · exact h.personOrgs id eventId orgId hlink
    · cases List.mem_singleton.mp hlink
      rw [hp.1, hp.2]
      exact h.assetOrgs _ _ _ (asset_link ha)
  · obtain ⟨eventId, orgId, hold, hasset⟩ := h.facePersons assetId personId hf
    exact ⟨eventId, orgId, hpersons ▸ List.mem_append_left _ hold, hasset⟩

/-- The person found by a search is of the event. -/
theorem nearestPerson_of (h : s.links.Sound) {a : Asset} {hit personId : String}
    (ha : a ∈ s.assets) (hfound : s.nearestPerson a.eventId hit = some personId) :
    (personId, a.eventId, a.orgId) ∈ s.links.persons := by
  unfold TenantStore.nearestPerson at hfound
  obtain ⟨g, hg, hfound⟩ := Option.bind_eq_some_iff.mp hfound
  obtain ⟨b, hb, hfound⟩ := Option.bind_eq_some_iff.mp hfound
  split at hfound
  · rename_i hlive
    obtain ⟨hbmem, hbid⟩ := asset_mem hb
    obtain ⟨eventId, orgId, hp, hasset⟩ := h.facePersons g.assetId personId
      (hfound ▸ face_link (face_mem hg).1)
    have hrow := unique_row h.assetIds hasset (hbid ▸ asset_link hbmem)
    cases hrow
    have horg := unique_row h.eventIds (hlive.1 ▸ h.assetOrgs _ _ _ (asset_link hbmem))
      (h.assetOrgs _ _ _ (asset_link ha))
    rw [← hlive.1, ← horg]
    exact hp
  · cases hfound

theorem sound_recognize (h : s.links.Sound) (faceId : String) (hit : Option String)
    (personId : String) :
    (s.recognize faceId hit personId).links.Sound := by
  unfold TenantStore.recognize
  cases hface : s.face faceId with
  | none => exact h
  | some f =>
    simp only
    cases hasset : s.asset f.assetId with
    | none => exact h
    | some a =>
      obtain ⟨hamem, haid⟩ := asset_mem hasset
      obtain ⟨hfmem, hfid⟩ := face_mem hface
      have hsame : ∀ g ∈ s.faces, decide (g.id = faceId) = true → g.assetId = a.id := by
        intro g hg hpicked
        have hgf : g = f := List.inj_on_of_nodup_map h.faceIds hg hfmem
          ((of_decide_eq_true hpicked).trans hfid.symm)
        rw [hgf, haid]
      simp only
      cases hfound : hit.bind (s.nearestPerson a.eventId) with
      | some found =>
        obtain ⟨near, -, hnear⟩ := Option.bind_eq_some_iff.mp hfound
        refine sound_reassign h fun g hg hpicked =>
          ⟨a.eventId, a.orgId, nearestPerson_of h hamem hnear, ?_⟩
        rw [hsame g hg hpicked]
        exact asset_link hamem
      | none =>
        simp only
        split
        · exact h
        · rename_i hfresh
          refine sound_reassign (sound_foundPerson h hamem hfresh ⟨rfl, rfl⟩) fun g hg hpicked =>
            ⟨a.eventId, a.orgId, ?_, ?_⟩
          · exact List.mem_map.mpr ⟨_, List.mem_append_right _ (List.mem_singleton_self _), rfl⟩
          · rw [hsame g hg hpicked]
            exact asset_link hamem

/-- Persons of one event are merged. -/
theorem sound_merge (h : s.links.Sound) (eventId id : String) (ids : List String) :
    (s.merge eventId id ids).links.Sound := by
  simp only [TenantStore.merge]
  split
  · rename_i hall
    obtain ⟨htarget, -, hsources⟩ := hall
    obtain ⟨target, htarget⟩ := Option.isSome_iff_exists.mp htarget
    obtain ⟨htmem, htid, htevent⟩ := getPerson_mem htarget
    refine sound_deletePersons (sound_reassign h fun f hf hpicked => ?_) _
    obtain ⟨source, hsource, hin⟩ := (Option.any_eq_true _ _).mp hpicked
    obtain ⟨p, hp⟩ := Option.isSome_iff_exists.mp
      (List.all_eq_true.mp hsources source (of_decide_eq_true hin))
    obtain ⟨hpmem, hpid, hpevent⟩ := getPerson_mem hp
    obtain ⟨v, o, hperson, hasset⟩ := h.facePersons f.assetId source (hsource ▸ face_link hf)
    cases unique_row h.personIds hperson (hpid ▸ person_link hpmem)
    have horg := unique_row h.eventIds (h.personOrgs _ _ _ (person_link htmem))
      (htevent ▸ hpevent ▸ h.personOrgs _ _ _ (person_link hpmem))
    refine ⟨p.eventId, p.orgId, ?_, hasset⟩
    rw [← horg, ← htid, hpevent, ← htevent]
    exact person_link htmem
  · exact h

theorem sound_updateEvent (h : s.links.Sound) (id : String) (dto : UpdateEvent) :
    (s.apply (.updateEvent id dto)).links.Sound := by
  have hkept : ∀ {s' : TenantStore}, s'.links = s.links → s'.links.Sound := fun hlinks => hlinks ▸ h
  have hrow : ∀ {α : Type} {g : EventRow → α}, (∀ e, g (dto.apply e) = g e) →
      (s.events.map (fun e => if e.id = id then dto.apply e else e)).map g = s.events.map g := by
    intro α g hg
    refine map_kept (fun e => ?_) s.events
    split
    · exact hg e
    · rfl
  refine hkept ?_
  simp only [TenantStore.apply, TenantStore.links]
  rw [hrow (g := fun e => (e.id, e.orgId)) fun _ => rfl,
    hrow (g := fun e => (e.orgId, e.coverAssetId)) fun _ => rfl]

theorem sound_addFace (h : s.links.Sound) (id assetId : String) :
    (s.apply (.addFace id assetId)).links.Sound := by
  rw [TenantStore.apply]
  split
  · rename_i hfresh
    refine sound_faces h ?_ fun f hf personId hperson => ?_
    · rw [List.map_append]
      refine List.nodup_append.mpr ⟨h.faceIds, List.nodup_singleton _, fun i hi j hj hij => ?_⟩
      obtain ⟨f, hf, rfl⟩ := List.mem_map.mp hi
      exact absurd (hij.trans (List.mem_singleton.mp hj))
        (by simpa using List.find?_eq_none.mp hfresh.2 f hf)
    · rcases List.mem_append.mp hf with hf | hf
      · exact .inl (hperson ▸ face_link hf)
      · rw [List.mem_singleton.mp hf] at hperson
        cases hperson
  · exact h

/-- Every change keeps the links sound, if it sets no cover from elsewhere. -/
theorem sound_apply (h : s.links.Sound) {change : Change} (hown : OwnCover s change) :
    (s.apply change).links.Sound := by
  have hkept : ∀ {s' : TenantStore}, s'.links = s.links → s'.links.Sound := fun hlinks => hlinks ▸ h
  cases change with
  | createUser user =>
    rw [TenantStore.apply]
    split
    · exact h
    · exact h
  | organization change =>
    rw [TenantStore.apply]
    cases change.apply { toAuthStore := s.auth } with
    | error e => exact h
    | ok w => exact h
  | openSession session =>
    rw [TenantStore.apply]
    split
    · exact h
    · exact h
  | closeSession id => exact h
  | submitSelfie participant =>
    rw [TenantStore.apply]
    split
    · exact h
    · exact h
  | eraseParticipant id => exact h
  | createEvent id orgId name slug =>
    rw [TenantStore.apply]
    split
    · exact h
    · rename_i hfresh
      exact sound_createEvent h (Option.not_isSome_iff_eq_none.mp fun hid => hfresh (.inl hid)) rfl
  | updateEvent id dto => exact sound_updateEvent h id dto
  | setCover eventId assetId => exact sound_setCover h hown
  | removeEvent id => exact sound_removeEvent h id
  | createAsset id eventId type originalFilename storageKey fileSize =>
    rw [TenantStore.apply]
    cases hevent : s.event eventId with
    | none => exact h
    | some event =>
      simp only
      split
      · exact h
      · rename_i hfresh
        exact sound_createAsset h (Option.not_isSome_iff_eq_none.mp hfresh) hevent rfl
  | updateAsset id dto =>
    refine hkept ?_
    simp only [TenantStore.apply, TenantStore.links]
    rw [map_kept (fun a => ?_) s.assets]
    split
    · rfl
    · rfl
  | upsertFile file =>
    rw [TenantStore.apply, TenantStore.upsertFile]
    split
    · split
      · exact h
      · exact h
    · exact h
  | upsertExif exif =>
    rw [TenantStore.apply, TenantStore.upsertExif]
    split
    · split
      · exact h
      · exact h
    · exact h
  | deleteMany eventId ids =>
    refine hkept ?_
    simp only [TenantStore.apply, TenantStore.links]
    rw [map_kept (fun a => ?_) s.assets]
    split
    · rfl
    · rfl
  | addFace id assetId => exact sound_addFace h id assetId
  | removeFaces ids =>
    refine sound_faces h (h.faceIds.sublist (List.filter_sublist.map _)) fun f hf personId
      hperson => ?_
    exact .inl (hperson ▸ face_link (List.mem_filter.mp hf).1)
  | recognize faceId hit personId => exact sound_recognize h faceId hit personId
  | updatePerson eventId id dto =>
    refine hkept ?_
    simp only [TenantStore.apply, TenantStore.links]
    rw [map_kept (fun p => ?_) s.persons]
    split
    · rfl
    · rfl
  | merge eventId id ids => exact sound_merge h eventId id ids
  | deletePersons ids => exact sound_deletePersons h ids
  | upsertAccount account =>
    simp only [TenantStore.apply, TenantStore.upsertAccount]
    split
    · exact h
    · split
      · exact h
      · exact h
  | updateAccessToken id accessTokenEnc tokenExpiresAt => exact h
  | markRevoked id => exact h
  | tick now => exact h

/-- The links are sound after any changes that set no cover from elsewhere. -/
theorem sound_after {changes : List Change} (hown : OwnCovers {} changes) :
    (after changes).links.Sound := by
  have hrun : ∀ (changes : List Change) (s : TenantStore), OwnCovers s changes → s.links.Sound →
      (changes.foldl TenantStore.apply s).links.Sound := by
    intro changes
    induction changes with
    | nil => exact fun _ _ h => h
    | cons change changes ih => exact fun s hown h => ih _ hown.2 (sound_apply h hown.1)
  refine hrun changes {} hown ⟨List.nodup_nil, List.nodup_nil, List.nodup_nil, List.nodup_nil,
    fun _ _ _ h => ?_, fun _ _ _ h => ?_, fun _ _ h => ?_, fun _ _ h => ?_⟩
  all_goals exact absurd h List.not_mem_nil

end Changes

end EventLens.Tenants
