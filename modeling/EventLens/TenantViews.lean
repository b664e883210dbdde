import EventLens.TenantLinks
import EventLens.TenantService

/-!
What is stored of one organisation, and that every query of a read route is
answered from it. Queries that go through an asset's event, a face's person or
an event's cover rest on these being of the same organisation.
-/

namespace EventLens.Tenants

open Galleries (AssetFileType)

/-- What is stored of one organisation. -/
def TenantStore.view (s : TenantStore) (orgId : String) : TenantStore :=
  { users := s.users.filter (fun u => s.members.any (fun m => m.orgId = orgId ∧ m.userId = u.id))
    orgs := s.orgs.filter (fun org => org.id = orgId)
    members := s.members.filter (fun m => m.orgId = orgId)
    events := s.events.filter (fun e => e.orgId = orgId)
    assets := s.assets.filter (fun a => a.orgId = orgId)
    files := s.files.filter (fun f => s.assets.any (fun a => a.id = f.assetId ∧ a.orgId = orgId))
    exifs := s.exifs.filter (fun x => s.assets.any (fun a => a.id = x.assetId ∧ a.orgId = orgId))
    faces := s.faces.filter (fun f => s.assets.any (fun a => a.id = f.assetId ∧ a.orgId = orgId))
    persons := s.persons.filter (fun p => p.orgId = orgId)
    accounts := s.accounts.filter (fun c => c.orgId = orgId) }

/-! Lists cut down to what a query looks at. -/

theorem filter_cut {α : Type} {rows : List α} {p q q' : α → Bool}
    (hin : ∀ r ∈ rows, q r = true → p r = true)
    (hsame : ∀ r ∈ rows, p r = true → q' r = q r) : (rows.filter p).filter q' = rows.filter q := by
  rw [List.filter_filter]
  refine List.filter_congr fun r hr => ?_
  by_cases hp : p r = true
  · rw [hp, Bool.and_true, hsame r hr hp]
  · rw [Bool.not_eq_true _ |>.mp hp, Bool.and_false]
    exact (Bool.not_eq_true _ |>.mp fun hq => hp (hin r hr hq)).symm

theorem find?_cut {α : Type} {rows : List α} {p q : α → Bool}
    (hin : ∀ r ∈ rows, q r = true → p r = true) :
    (rows.filter p).find? q = rows.find? q := by
  rw [← List.head?_filter, ← List.head?_filter, filter_cut hin fun _ _ _ => rfl]

theorem findSome?_same {α β : Type} {rows : List α} {f g : α → Option β}
    (h : ∀ r ∈ rows, f r = g r) :
    rows.findSome? f = rows.findSome? g := by
  induction rows with
  | nil => rfl
  | cons r rows ih =>
    rw [List.findSome?_cons, List.findSome?_cons, h r List.mem_cons_self,
      ih fun r' hr' => h r' (List.mem_cons_of_mem r hr')]

section View

variable {s : TenantStore} {orgId : String}

theorem view_getById : (s.view orgId).getById orgId = s.getById orgId :=
  find?_cut fun _ _ h => decide_eq_true (of_decide_eq_true h).1

theorem view_eventsOf : (s.view orgId).eventsOf orgId = s.eventsOf orgId :=
  filter_cut (fun _ _ h => decide_eq_true (of_decide_eq_true h).1) fun _ _ _ => rfl

theorem view_accountsOf : (s.view orgId).accountsOf orgId = s.accountsOf orgId :=
  filter_cut (fun _ _ h => decide_eq_true (of_decide_eq_true h).1) fun _ _ _ => rfl

theorem view_getAccount (accountId : String) :
    (s.view orgId).getAccount orgId accountId = s.getAccount orgId accountId :=
  find?_cut fun _ _ h => decide_eq_true (of_decide_eq_true h).2.1

theorem view_getMembership (userId : String) :
    (s.view orgId).auth.getMembership orgId userId = s.auth.getMembership orgId userId :=
  find?_cut fun _ _ h => decide_eq_true (of_decide_eq_true h).1

theorem view_listMembers : (s.view orgId).listMembers orgId = s.listMembers orgId := by
  unfold TenantStore.listMembers
  have hmembers : (s.view orgId).members.filter (fun m => m.orgId = orgId) =
      s.members.filter (fun m => m.orgId = orgId) := filter_cut (fun _ _ h => h) fun _ _ _ => rfl
  rw [hmembers]
  refine List.filterMap_congr fun m hm => ?_
  obtain ⟨hmem, horg⟩ := List.mem_filter.mp hm
  have huser : (s.view orgId).users.find? (fun u => u.id = m.userId ∧ u.deleted = false) =
      s.users.find? (fun u => u.id = m.userId ∧ u.deleted = false) := by
    refine find?_cut fun u _ hu => List.any_eq_true.mpr ⟨m, hmem, decide_eq_true ?_⟩
    exact ⟨of_decide_eq_true horg, (of_decide_eq_true hu).1.symm⟩
  rw [huser]

variable (hsound : s.links.Sound)
include hsound

/-- An asset's event is of the asset's organisation. -/
theorem event_of_asset {a : Asset} (ha : a ∈ s.assets) {e : EventRow} (he : e ∈ s.events)
    (hid : e.id = a.eventId) : e.orgId = a.orgId :=
  unique_row hsound.eventIds (hid ▸ event_link he) (hsound.assetOrgs _ _ _ (asset_link ha))

theorem event_of_person {p : Person} (hp : p ∈ s.persons) {e : EventRow} (he : e ∈ s.events)
    (hid : e.id = p.eventId) : e.orgId = p.orgId :=
  unique_row hsound.eventIds (hid ▸ event_link he) (hsound.personOrgs _ _ _ (person_link hp))

theorem view_assetsOf {e : EventRow} (he : e ∈ s.events) (horg : e.orgId = orgId) :
    (s.view orgId).assetsOf e.id = s.assetsOf e.id := by
  refine filter_cut (fun a ha h => decide_eq_true ?_) fun _ _ _ => rfl
  rw [← horg]
  exact (event_of_asset hsound ha he (of_decide_eq_true h).1.symm).symm

theorem view_event_of_asset {a : Asset} (ha : a ∈ s.assets) (horg : a.orgId = orgId) :
    (s.view orgId).event a.eventId = s.event a.eventId := by
  refine find?_cut fun e he h => decide_eq_true ?_
  rw [← horg]
  exact event_of_asset hsound ha he (of_decide_eq_true h)

theorem view_event_of_person {p : Person} (hp : p ∈ s.persons) (horg : p.orgId = orgId) :
    (s.view orgId).event p.eventId = s.event p.eventId := by
  refine find?_cut fun e he h => decide_eq_true ?_
  rw [← horg]
  exact event_of_person hsound hp he (of_decide_eq_true h)

omit hsound in
theorem view_fileKey {a : Asset} (ha : a ∈ s.assets) (horg : a.orgId = orgId)
    (type : AssetFileType) :
    (s.view orgId).fileKey a.id type = s.fileKey a.id type := by
  unfold TenantStore.fileKey
  have hfiles : (s.view orgId).files.find? (fun f => f.assetId = a.id ∧ f.type = type) =
      s.files.find? (fun f => f.assetId = a.id ∧ f.type = type) :=
    find?_cut fun f _ h => List.any_eq_true.mpr
      ⟨a, ha, decide_eq_true ⟨(of_decide_eq_true h).1.symm, horg⟩⟩
  rw [hfiles]

omit hsound in
theorem view_exif {a : Asset} (ha : a ∈ s.assets) (horg : a.orgId = orgId) :
    (s.view orgId).exif a.id = s.exif a.id :=
  find?_cut fun _ _ h =>
    List.any_eq_true.mpr ⟨a, ha, decide_eq_true ⟨(of_decide_eq_true h).symm, horg⟩⟩

theorem org_of_assetsOf {e : EventRow} (he : e ∈ s.events) {a : Asset} (ha : a ∈ s.assetsOf e.id) :
    a ∈ s.assets ∧ a.orgId = e.orgId := by
  obtain ⟨hmem, hevent⟩ := List.mem_filter.mp ha
  exact ⟨hmem, (event_of_asset hsound hmem he (of_decide_eq_true hevent).1.symm).symm⟩

theorem view_fallbackCoverKey {e : EventRow} (he : e ∈ s.events) (horg : e.orgId = orgId) :
    (s.view orgId).fallbackCoverKey e.id = s.fallbackCoverKey e.id := by
  unfold TenantStore.fallbackCoverKey
  rw [view_assetsOf hsound he horg]
  refine findSome?_same fun a ha => ?_
  obtain ⟨hmem, haorg⟩ := org_of_assetsOf hsound he ((List.mem_insertionSort _).mp ha)
  exact view_fileKey hmem (haorg.trans horg) _

theorem view_sidebarEvent {e : EventRow} (he : e ∈ s.events) (horg : e.orgId = orgId) :
    (s.view orgId).sidebarEvent e = s.sidebarEvent e := by
  have hcover : e.coverAssetId.bind (fun id => (s.view orgId).fileKey id .thumbnail) =
      e.coverAssetId.bind (fun id => s.fileKey id .thumbnail) := by
    cases hid : e.coverAssetId with
    | none => rfl
    | some assetId =>
      have hlink : (e.orgId, some assetId) ∈ s.links.covers := List.mem_map.mpr ⟨e, he, by rw [hid]⟩
      obtain ⟨eventId, ha⟩ := hsound.covers e.orgId assetId hlink
      obtain ⟨a, hmem, heq⟩ := List.mem_map.mp ha
      obtain ⟨rfl, hrest⟩ := Prod.mk.inj heq
      exact view_fileKey hmem ((Prod.mk.inj hrest).2.trans horg) _
  unfold TenantStore.sidebarEvent
  rw [hcover, view_assetsOf hsound he horg, view_fallbackCoverKey hsound he horg]

theorem view_listForSidebar : (s.view orgId).listForSidebar orgId = s.listForSidebar orgId := by
  unfold TenantStore.listForSidebar
  rw [view_eventsOf]
  refine List.map_congr_left fun e he => ?_
  obtain ⟨hmem, horg⟩ := List.mem_filter.mp ((List.mem_insertionSort _).mp he)
  exact view_sidebarEvent hsound hmem (of_decide_eq_true horg).1

theorem view_stored : (s.view orgId).stored orgId = s.stored orgId := by
  refine filter_cut (fun a ha h => decide_eq_true ?_) fun a ha h => ?_
  · obtain ⟨e, he, hevent⟩ := (Option.any_eq_true _ _).mp (of_decide_eq_true h).2
    obtain ⟨hmem, hid⟩ := event_mem he
    rw [← event_of_asset hsound ha hmem hid]
    exact (of_decide_eq_true hevent).1
  · rw [view_event_of_asset hsound ha (of_decide_eq_true h)]

theorem view_getOrgStorageBytes :
    (s.view orgId).getOrgStorageBytes orgId = s.getOrgStorageBytes orgId := by
  rw [TenantStore.getOrgStorageBytes, view_stored hsound, TenantStore.getOrgStorageBytes]

theorem view_countNamedForOrg :
    (s.view orgId).countNamedForOrg orgId = s.countNamedForOrg orgId := by
  unfold TenantStore.countNamedForOrg
  refine congrArg List.length (filter_cut (fun p _ h => decide_eq_true (of_decide_eq_true h).1) ?_)
  intro p hp h
  rw [view_event_of_person hsound hp (of_decide_eq_true h)]

theorem view_getOrgUsageByEvent :
    (s.view orgId).getOrgUsageByEvent orgId = s.getOrgUsageByEvent orgId := by
  unfold TenantStore.getOrgUsageByEvent
  rw [view_eventsOf]
  refine List.map_congr_left fun e he => ?_
  obtain ⟨hmem, horg⟩ := List.mem_filter.mp ((List.mem_insertionSort _).mp he)
  unfold TenantStore.eventUsage
  rw [view_assetsOf hsound hmem (of_decide_eq_true horg).1]

/-- The faces of a person lie on assets of the person's organisation. -/
theorem asset_of_face {p : Person} (hp : p ∈ s.persons) {f : AssetFace} (hf : f ∈ s.faces)
    (hperson : f.personId = some p.id) {a : Asset} (ha : a ∈ s.assets) (hid : a.id = f.assetId) :
    a.orgId = p.orgId := by
  obtain ⟨eventId, o, hlink, hasset⟩ := hsound.facePersons f.assetId p.id (hperson ▸ face_link hf)
  have hrow := unique_row hsound.personIds hlink (person_link hp)
  have hsame := unique_row hsound.assetIds hasset (hid ▸ asset_link ha)
  exact (Prod.mk.inj hsame).2.symm.trans (Prod.mk.inj hrow).2

theorem view_photosOf {p : Person} (hp : p ∈ s.persons) (horg : p.orgId = orgId) :
    (s.view orgId).photosOf p.id = s.photosOf p.id := by
  unfold TenantStore.photosOf
  have hasset :
    ∀ f ∈ s.faces, f.personId = some p.id → (s.view orgId).asset f.assetId = s.asset f.assetId := by
    intro f hf hperson
    refine find?_cut fun a ha h => decide_eq_true ?_
    rw [← horg]
    exact asset_of_face hsound hp hf hperson ha (of_decide_eq_true h)
  have hfaces : (s.view orgId).faces.filter (fun f => f.personId = some p.id ∧ f.deleted = false ∧
      ((s.view orgId).asset f.assetId).any (fun a => a.deletedAt = none)) =
      s.faces.filter (fun f => f.personId = some p.id ∧ f.deleted = false ∧
        (s.asset f.assetId).any (fun a => a.deletedAt = none)) := by
    refine filter_cut (fun f hf h => ?_) fun f hf _ => ?_
    · obtain ⟨hperson, -, hlive⟩ := of_decide_eq_true h
      obtain ⟨a, ha, -⟩ := (Option.any_eq_true _ _).mp hlive
      obtain ⟨hmem, hid⟩ := asset_mem ha
      exact List.any_eq_true.mpr ⟨a, hmem, decide_eq_true
        ⟨hid, (asset_of_face hsound hp hf hperson hmem hid).trans horg⟩⟩
    · by_cases hperson : f.personId = some p.id
      · rw [hasset f hf hperson]
      · simp [hperson]
  rw [hfaces]

theorem view_getAllForOrg : (s.view orgId).getAllForOrg orgId = s.getAllForOrg orgId := by
  unfold TenantStore.getAllForOrg
  have hpersons : (s.view orgId).persons.filter (fun p => p.orgId = orgId ∧ p.isHidden = false) =
      s.persons.filter (fun p => p.orgId = orgId ∧ p.isHidden = false) :=
    filter_cut (fun _ _ h => decide_eq_true (of_decide_eq_true h).1) fun _ _ _ => rfl
  rw [hpersons, List.filterMap_congr fun p hp => ?_]
  obtain ⟨hmem, hshown⟩ := List.mem_filter.mp hp
  have horg := (of_decide_eq_true hshown).1
  rw [view_event_of_person hsound hmem horg]
  have hperson : (s.view orgId).orgPerson p = s.orgPerson p := by
    funext e
    unfold TenantStore.orgPerson
    rw [view_photosOf hsound hmem horg]
  rw [hperson]

theorem view_getMapMarkersForOrg :
    (s.view orgId).getMapMarkersForOrg orgId = s.getMapMarkersForOrg orgId := by
  unfold TenantStore.getMapMarkersForOrg
  have hassets : (s.view orgId).assets.filter (fun a => a.orgId = orgId ∧ a.deletedAt = none) =
      s.assets.filter (fun a => a.orgId = orgId ∧ a.deletedAt = none) :=
    filter_cut (fun _ _ h => decide_eq_true (of_decide_eq_true h).1) fun _ _ _ => rfl
  rw [hassets]
  refine List.filterMap_congr fun a ha => ?_
  obtain ⟨hmem, hlive⟩ := List.mem_filter.mp ((List.mem_insertionSort _).mp ha)
  have horg := (of_decide_eq_true hlive).1
  unfold TenantStore.mapMarker
  rw [view_event_of_asset hsound hmem horg, view_exif hmem horg, view_fileKey hmem horg]

omit hsound in
theorem view_listByOrg : (s.view orgId).listByOrg orgId = s.listByOrg orgId := by
  rw [TenantStore.listByOrg, view_eventsOf, TenantStore.listByOrg]

theorem view_joinEvents :
    Assets.joinEvents ((s.view orgId).assets.map Asset.toAsset)
        ((s.view orgId).events.map TenantStore.listedEvent) orgId =
      Assets.joinEvents (s.assets.map Asset.toAsset)
      (s.events.map TenantStore.listedEvent) orgId := by
  unfold Assets.joinEvents
  have hassets : ((s.view orgId).assets.map Asset.toAsset).filter
        (fun a => decide (a.orgId = orgId) && a.deletedAt.isNone) =
      (s.assets.map Asset.toAsset).filter
        (fun a => decide (a.orgId = orgId) && a.deletedAt.isNone) := by
    rw [List.filter_map, List.filter_map]
    exact congrArg (List.map Asset.toAsset)
      (filter_cut (fun _ _ h => (Bool.and_eq_true _ _ |>.mp h).1) fun _ _ _ => rfl)
  rw [hassets]
  refine List.flatMap_congr fun row hrow => ?_
  obtain ⟨hmem, hlive⟩ := List.mem_filter.mp hrow
  obtain ⟨a, ha, rfl⟩ := List.mem_map.mp hmem
  have horg := of_decide_eq_true (Bool.and_eq_true _ _ |>.mp hlive).1
  rw [List.filter_map, List.filter_map]
  refine congrArg _ (congrArg _ (filter_cut (fun e he h => decide_eq_true ?_) fun _ _ _ => rfl))
  simp only [Function.comp_apply, Bool.and_eq_true, decide_eq_true_eq] at h
  exact (event_of_asset hsound ha he h.1.1).trans horg

omit hsound in
/-- The rows of a page of the timeline are of the organisation. -/
theorem org_of_row {limit : ℕ} {cursor : Option (Assets.Cursor String)}
    {assets : List (Assets.Asset String)} {events : List (Assets.Event String)}
    {row : Assets.OrgAsset String}
    (h : row ∈ (Assets.AssetService.listForOrg assets events orgId limit cursor).rows) :
    row.orgId = orgId := by
  have hfetched : row ∈ Assets.AssetRepository.listForOrg assets events orgId (limit + 1)
      (cursor.map Assets.decodeCursor) := by
    simp only [Assets.AssetService.listForOrg, Keyset.page] at h
    split at h
    · exact List.mem_of_mem_take h
    · exact h
  have hordered := List.mem_of_mem_take hfetched
  have hselected : row ∈ Assets.joinEvents assets events orgId := by
    cases cursor with
    | none => exact (List.mem_insertionSort _).mp hordered
    | some c => exact (List.mem_filter.mp ((List.mem_insertionSort _).mp hordered)).1
  obtain ⟨a, ha, hjoined⟩ := List.mem_flatMap.mp hselected
  obtain ⟨e, -, rfl⟩ := List.mem_map.mp hjoined
  exact of_decide_eq_true (Bool.and_eq_true _ _ |>.mp (List.mem_filter.mp ha).2).1

theorem view_listForOrg (limit : ℕ) (cursor : Option (Assets.Cursor String)) :
    (s.view orgId).listForOrg orgId limit cursor = s.listForOrg orgId limit cursor := by
  have hpage : Assets.AssetService.listForOrg ((s.view orgId).assets.map Asset.toAsset)
        ((s.view orgId).events.map TenantStore.listedEvent) orgId limit cursor =
      Assets.AssetService.listForOrg (s.assets.map Asset.toAsset)
        (s.events.map TenantStore.listedEvent) orgId limit cursor := by
    unfold Assets.AssetService.listForOrg Assets.AssetRepository.listForOrg
    rw [view_joinEvents hsound]
  unfold TenantStore.listForOrg
  rw [hpage]
  refine congrArg₂ Response.assets (List.flatMap_congr fun row hrow => ?_) rfl
  have horg := org_of_row hrow
  have hassets : (s.view orgId).assets.filter (fun a => a.toAsset = row.toAsset) =
      s.assets.filter (fun a => a.toAsset = row.toAsset) := by
    refine filter_cut (fun a _ h => decide_eq_true ?_) fun _ _ _ => rfl
    rw [← horg, ← of_decide_eq_true h]
  rw [hassets]
  refine List.map_congr_left fun a ha => ?_
  obtain ⟨hmem, hsame⟩ := List.mem_filter.mp ha
  have haorg : a.orgId = orgId := by
    rw [← horg, ← of_decide_eq_true hsame]
  unfold TenantStore.timelineAsset
  rw [view_fileKey hmem haorg, view_fileKey hmem haorg]

/-- Every route is answered from what is stored of its organisation. -/
theorem answer_view (services : CloudServices) (now : Date) (userId : String) (route : OrgRoute) :
    route.answer services now (s.view orgId) orgId userId =
      route.answer services now s orgId userId := by
  cases route with
  | organization => rw [OrgRoute.answer, view_getById, OrgRoute.answer]
  | shell =>
    rw [OrgRoute.answer, view_getOrgStorageBytes hsound, view_stored hsound,
      view_countNamedForOrg hsound, view_listForSidebar hsound, OrgRoute.answer]
  | quota =>
    rw [OrgRoute.answer, view_getById, view_getOrgStorageBytes hsound, TenantStore.countForOrg,
      view_eventsOf, OrgRoute.answer, TenantStore.countForOrg]
  | usage => rw [OrgRoute.answer, view_getOrgUsageByEvent hsound, OrgRoute.answer]
  | notifications => rw [OrgRoute.answer, view_listForSidebar hsound, OrgRoute.answer]
  | people => rw [OrgRoute.answer, view_getAllForOrg hsound, OrgRoute.answer]
  | mapMarkers => rw [OrgRoute.answer, view_getMapMarkersForOrg hsound, OrgRoute.answer]
  | members => rw [OrgRoute.answer, view_listMembers, OrgRoute.answer]
  | events => rw [OrgRoute.answer, view_listByOrg, OrgRoute.answer]
  | assets limit cursor => rw [OrgRoute.answer, view_listForOrg hsound, OrgRoute.answer]
  | authorize provider => rfl
  | accounts => rw [OrgRoute.answer, view_accountsOf, OrgRoute.answer]
  | folders accountId parentId => rw [OrgRoute.answer, view_getAccount, OrgRoute.answer]

end View

end EventLens.Tenants
