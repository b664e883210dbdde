import EventLens.Relational
import EventLens.TenantService

/-!
The usage of an organisation, as five queries put it: the sidebar, the quota,
the breakdown by event, the table of all organisations and the breakdown by
organisation. Each query is written out as the repositories have it. Whatever
is deleted or empty, they agree on the bytes and on the events.
-/

namespace EventLens.Tenants

open Relational
open Auth (OrganizationUser)

/-- A state of the database. The ids of events and of organisations are primary
keys; the functions are columns that only these queries read. -/
structure Database extends TenantStore where
  orgCreatedAt : String → Date := fun _ => 0
  memberCreatedAt : String → String → Date := fun _ _ => 0
  userName : String → String := fun _ => ""
  eventIds : (events.map EventRow.id).Nodup
  orgIds : (orgs.map (fun org => org.id)).Nodup

structure OrgStorage where
  bytes : ℕ
  assets : ℕ
deriving DecidableEq, Repr

structure OrgUsage where
  org : Auth.Organization
  ownerId : Option String
  ownerEmail : Option String
  ownerName : Option String
  usedBytes : ℕ
  usedEvents : ℕ
deriving DecidableEq, Repr

structure OrgBreakdown where
  orgId : String
  name : String
  slug : String
  eventCount : ℕ
  personCount : ℕ
  assetCount : ℕ
  storageBytes : ℕ
  participantCount : ℕ
  personsPerEvent : ℚ
deriving DecidableEq, Repr

namespace Database

variable (db : Database)

/-! The queries. -/

def getOrgStorage (orgId : String) : OrgStorage :=
  let rows := (innerJoin db.assets db.events (fun asset event => event.id = asset.eventId)).filter
    (fun row => row.2.orgId = orgId ∧ row.1.deletedAt = none ∧ row.2.deletedAt = none)
  { bytes := total (fun row => some row.1.fileSize) rows, assets := rows.length }

def getOrgStorageBytes (orgId : String) : ℕ :=
  total (fun row => some row.1.fileSize)
    ((innerJoin db.assets db.events (fun asset event => event.id = asset.eventId)).filter
      (fun row => row.2.orgId = orgId ∧ row.1.deletedAt = none ∧ row.2.deletedAt = none))

def countForOrg (orgId : String) : ℕ :=
  (db.events.filter (fun event => event.orgId = orgId ∧ event.deletedAt = none)).length

/-- `max(event.created_at)`. -/
def latest (rows : List (EventRow × Option Asset)) : Option Date :=
  (rows.map (fun row => row.1.createdAt)).max?

/-- Grouped by the id and the name of the event, the newest first. -/
def getOrgUsageByEvent (orgId : String) : List EventUsage :=
  let rows := (leftJoin db.events db.assets
      (fun event asset => asset.eventId = event.id ∧ asset.deletedAt = none)).filter
    (fun row => row.1.orgId = orgId ∧ row.1.deletedAt = none)
  let groups := (groupBy (fun row => (row.1.id, row.1.name)) rows).insertionSort
    (fun g h => later (latest g.2) (latest h.2))
  groups.map (fun g =>
    { eventId := g.1.1
      eventName := g.1.2
      photos := g.2.countP (fun row => row.2.any (fun asset => asset.type = .image))
      videos := g.2.countP (fun row => row.2.any (fun asset => asset.type = .video))
      bytes := total (fun row => row.2.map Asset.fileSize) g.2 })

abbrev Ownership := OrganizationUser × Auth.User

/-- By organisation, then by the time of joining. -/
def ownersFirst (x y : Ownership) : Prop :=
  x.1.orgId < y.1.orgId ∨ (x.1.orgId = y.1.orgId ∧
    db.memberCreatedAt x.1.orgId x.1.userId ≤ db.memberCreatedAt y.1.orgId y.1.userId)

instance : DecidableRel db.ownersFirst := fun x y => by
  unfold ownersFirst
  infer_instance

/-- The owners whose accounts are live. -/
def ownerships : List Ownership :=
  ((innerJoin db.members db.users (fun member user => user.id = member.userId)).filter
    (fun row => row.1.role = .owner ∧ row.2.deleted = false)).insertionSort db.ownersFirst

/-- The owner of each organisation who joined first. -/
def owners : List Ownership := distinctOn (fun row : Ownership => row.1.orgId) db.ownerships

def orgUsage (org : Auth.Organization) (owner : Option Ownership) : OrgUsage :=
  { org := org
    ownerId := owner.map (fun row => row.2.id)
    ownerEmail := owner.map (fun row => row.2.email)
    ownerName := owner.map (fun row => db.userName row.2.id)
    usedBytes := total (fun row => some row.1.fileSize)
      ((innerJoin db.assets db.events (fun asset event => event.id = asset.eventId)).filter
        (fun row => row.2.orgId = org.id ∧ row.1.deletedAt = none ∧ row.2.deletedAt = none))
    usedEvents :=
      (db.events.filter (fun event => event.orgId = org.id ∧ event.deletedAt = none)).length }

def listWithUsage : List OrgUsage :=
  (((leftJoin db.orgs db.owners (fun org owner => owner.1.orgId = org.id)).filter
    (fun row => row.1.deleted = false)).insertionSort
      (fun x y => db.orgCreatedAt y.1.id ≤ db.orgCreatedAt x.1.id)).map
        (fun row => db.orgUsage row.1 row.2)

/-- `Math.round(x * 10) / 10`. -/
def roundTenth (x : ℚ) : ℚ := (⌊x * 10 + 1 / 2⌋ : ℚ) / 10

def orgBreakdown (org : Auth.Organization) : OrgBreakdown :=
  let eventCount :=
    (db.events.filter (fun event => event.orgId = org.id ∧ event.deletedAt = none)).length
  let personCount := (db.persons.filter (fun person => person.orgId = org.id)).length
  { orgId := org.id
    name := org.name
    slug := org.slug
    eventCount := eventCount
    personCount := personCount
    assetCount :=
      ((innerJoin db.assets db.events (fun asset event => event.id = asset.eventId)).filter
      (fun row => row.2.orgId = org.id ∧ row.1.deletedAt = none ∧ row.2.deletedAt = none)).length
    storageBytes := total (fun row => some row.1.fileSize)
      ((innerJoin db.assets db.events (fun asset event => event.id = asset.eventId)).filter
        (fun row => row.2.orgId = org.id ∧ row.1.deletedAt = none ∧ row.2.deletedAt = none))
    participantCount :=
      ((innerJoin db.participants db.events (fun guest event => event.id = guest.eventId)).filter
        (fun row => row.2.orgId = org.id ∧ row.1.deleted = false ∧ row.2.deletedAt = none)).length
    personsPerEvent := if 0 < eventCount then roundTenth (personCount / eventCount) else 0 }

def getOrganizationBreakdown : List OrgBreakdown :=
  ((db.orgs.filter (fun org => org.deleted = false)).insertionSort (fun x y => x.name ≤ y.name)).map
    db.orgBreakdown

/-! What they come to. -/

variable {db} {orgId : String}

/-- The bytes, summed event by event. -/
theorem getOrgStorageBytes_events :
    db.getOrgStorageBytes orgId =
      ((db.eventsOf orgId).map (fun e => ((db.assetsOf e.id).map Asset.fileSize).sum)).sum := by
  have hjoin :
    innerJoin db.events db.assets (fun event asset => decide (event.id = asset.eventId) &&
        decide (event.orgId = orgId ∧ asset.deletedAt = none ∧ event.deletedAt = none)) =
      innerJoin (db.eventsOf orgId) db.assets
        (fun event asset => asset.eventId = event.id ∧ asset.deletedAt = none) := by
    rw [TenantStore.eventsOf, innerJoin_filter]
    refine congrArg _ (funext fun event => funext fun asset => ?_)
    rw [← Bool.decide_and, ← Bool.decide_and]
    refine decide_eq_decide.mpr ?_
    constructor
    · rintro ⟨hid, horg, hlive, hevent⟩
      exact ⟨⟨hid.symm, hlive⟩, horg, hevent⟩
    · rintro ⟨⟨hid, hlive⟩, horg, hevent⟩
      exact ⟨hid.symm, horg, hlive, hevent⟩
  rw [getOrgStorageBytes, total_some, innerJoin_where]
  refine (sum_innerJoin_swap _ _ _ (fun (asset : Asset) _ => asset.fileSize)).trans ?_
  rw [hjoin]
  exact sum_innerJoin _ _ _ (fun _ asset => Asset.fileSize asset)

theorem latest_beside (e : EventRow) (on : EventRow → Asset → Bool) :
    latest (beside db.assets on e) = some e.createdAt := by
  obtain ⟨n, hdates⟩ := map_beside db.assets on e EventRow.createdAt
  rw [latest, hdates, List.max?_replicate]
  rfl

/-- Grouped and ordered, the breakdown lists the events of the organisation. -/
theorem getOrgUsageByEvent_eq :
    db.getOrgUsageByEvent orgId = db.toTenantStore.getOrgUsageByEvent orgId := by
  let on : EventRow → Asset → Bool :=
    fun event asset => asset.eventId = event.id ∧ asset.deletedAt = none
  have hkeys : ((db.eventsOf orgId).map (fun e => (e.id, e.name))).Nodup := by
    refine List.Nodup.of_map Prod.fst ?_
    rw [List.map_map]
    exact db.eventIds.sublist (List.filter_sublist.map _)
  have hrows : (leftJoin db.events db.assets on).filter
      (fun row => row.1.orgId = orgId ∧ row.1.deletedAt = none) =
      leftJoin (db.eventsOf orgId) db.assets on :=
    leftJoin_filter db.events db.assets on (fun e => e.orgId = orgId ∧ e.deletedAt = none)
  let key : EventRow → String × String := fun e => (e.id, e.name)
  have hgroups : groupBy (fun row => key row.1) (leftJoin (db.eventsOf orgId) db.assets on) =
      (db.eventsOf orgId).map (fun e => (key e, beside db.assets on e)) := groupBy_leftJoin hkeys
  have hsorted := List.map_insertionSort (r := fun a b : EventRow => b.createdAt ≤ a.createdAt)
    (s := fun g h => later (latest g.2) (latest h.2)) (fun e => (key e, beside db.assets on e))
    (db.eventsOf orgId) fun a _ b _ => by
      rw [latest_beside, latest_beside]
      rfl
  change ((groupBy (fun row => key row.1) ((leftJoin db.events db.assets on).filter
    (fun row => row.1.orgId = orgId ∧ row.1.deletedAt = none))).insertionSort
      (fun g h => later (latest g.2) (latest h.2))).map _ = _
  rw [hrows, hgroups, ← hsorted, List.map_map, TenantStore.getOrgUsageByEvent]
  refine List.map_congr_left fun e _ => ?_
  simp only [Function.comp_apply, countP_beside, total_beside, TenantStore.eventUsage,
    TenantStore.assetsOf, key, on]

/-- The sidebar reads the assets that are stored. -/
theorem getOrgStorage_eq :
    db.getOrgStorage orgId =
      ⟨db.toTenantStore.getOrgStorageBytes orgId, (db.toTenantStore.stored orgId).length⟩ := by
  have hevent : ∀ asset : Asset, db.events.filter (fun event => event.id = asset.eventId) =
      (db.event asset.eventId).toList :=
        fun asset => Relational.filter_unique db.eventIds asset.eventId
  have hstored :
    ((innerJoin db.assets db.events (fun asset event => event.id = asset.eventId)).filter
      (fun row => row.2.orgId = orgId ∧ row.1.deletedAt = none ∧ row.2.deletedAt = none)).map
        Prod.fst =
      db.toTenantStore.stored orgId := by
    rw [innerJoin_single hevent, TenantStore.stored]
    refine List.filter_congr fun asset _ => ?_
    cases db.event asset.eventId with
    | none => simp
    | some event => simp [and_left_comm]
  rw [getOrgStorage, TenantStore.getOrgStorageBytes, ← hstored, List.map_map, List.length_map]
  simp only [total_some, Function.comp_def]

section Figures

variable {org : Auth.Organization}

theorem listed_once {ρ : Type} {line : Auth.Organization → ρ} {listed : List ρ} (id : ρ → String)
    (hid : ∀ o, id (line o) = o.id)
    (hlisted : listed.Perm ((db.orgs.filter (fun o => o.deleted = false)).map line))
    (horg : org ∈ db.orgs) (hlive : org.deleted = false) :
    listed.filter (fun row => id row = org.id) = [line org] := by
  have hids : ((db.orgs.filter (fun o => o.deleted = false)).map (fun o => o.id)).Nodup :=
    db.orgIds.sublist (List.filter_sublist.map _)
  have hthere : org ∈ db.orgs.filter (fun o => o.deleted = false) :=
    List.mem_filter.mpr ⟨horg, decide_eq_true hlive⟩
  refine List.perm_singleton.mp ((hlisted.filter _).trans ?_)
  rw [List.filter_map]
  simp only [Function.comp_def, hid]
  rw [Relational.filter_key hids hthere]
  exact .refl _

/-- The table of all organisations has a row for each live one, whoever owns it. -/
theorem listWithUsage_perm :
    db.listWithUsage.Perm ((db.orgs.filter (fun o => o.deleted = false)).map
      (fun o => db.orgUsage o (db.ownerships.find? (fun row => row.1.orgId = o.id)))) := by
  have howners : ∀ o : Auth.Organization, db.owners.filter (fun row => row.1.orgId = o.id) =
      (db.ownerships.find? (fun row => row.1.orgId = o.id)).toList :=
        fun o => filter_distinctOn _ o.id
  rw [listWithUsage, leftJoin_filter db.orgs db.owners _ (fun o => o.deleted = false),
    leftJoin_single howners]
  refine ((List.perm_insertionSort _ _).map _).trans ?_
  rw [List.map_map]
  exact .refl _

/-- One figure everywhere: of a live organisation the bytes are the same in all
five places, and so are the events in all four. -/
theorem figures_agree (db : Database) (org : Auth.Organization) (horg : org ∈ db.orgs)
    (hlive : org.deleted = false) :
    ∃ row line,
      db.listWithUsage.filter (fun row => row.org.id = org.id) = [row] ∧
      db.getOrganizationBreakdown.filter (fun line => line.orgId = org.id) = [line] ∧
      (db.getOrgStorage org.id).bytes = db.getOrgStorageBytes org.id ∧
      ((db.getOrgUsageByEvent org.id).map EventUsage.bytes).sum = db.getOrgStorageBytes org.id ∧
      row.usedBytes = db.getOrgStorageBytes org.id ∧
      line.storageBytes = db.getOrgStorageBytes org.id ∧
      (db.getOrgUsageByEvent org.id).length = db.countForOrg org.id ∧
      row.usedEvents = db.countForOrg org.id ∧
      line.eventCount = db.countForOrg org.id := by
  have hrow := listed_once (fun row : OrgUsage => row.org.id) (fun _ => rfl) listWithUsage_perm
    horg hlive
  have hlisted : db.getOrganizationBreakdown.Perm
      ((db.orgs.filter (fun o => o.deleted = false)).map db.orgBreakdown) :=
    (List.perm_insertionSort _ _).map _
  have hline := listed_once OrgBreakdown.orgId (fun _ => rfl) hlisted horg hlive
  refine ⟨_, _, hrow, hline, rfl, ?_, rfl, rfl, ?_, rfl, rfl⟩
  · have hsorted := List.perm_insertionSort (fun a b : EventRow => b.createdAt ≤ a.createdAt)
      (db.eventsOf org.id)
    rw [getOrgUsageByEvent_eq, TenantStore.getOrgUsageByEvent, List.map_map,
      getOrgStorageBytes_events]
    exact (hsorted.map _).sum_eq
  · rw [getOrgUsageByEvent_eq, TenantStore.getOrgUsageByEvent, List.length_map,
      List.length_insertionSort]
    rfl

end Figures

/-! A photo of a live event, one taken down, and one of an event taken down. -/

def party : EventRow :=
    { id := "party", orgId := "studio", name := "Party", slug := "party", createdAt := 1 }

def trial : EventRow :=
  { id := "trial", orgId := "studio", name := "Trial", slug := "trial", createdAt := 2, deletedAt :=
    some 9 }

def empty : EventRow :=
    { id := "empty", orgId := "studio", name := "Empty", slug := "empty", createdAt := 3 }

def photo (id eventId : String) (fileSize : ℕ) : Asset :=
  { id := id
    eventId := eventId
    orgId := "studio"
    type := .image
    originalFilename := id
    fileSize := fileSize
    createdAt := 4
    storageKey := id }

def studio : Auth.Organization :=
    { id := "studio", plan := .starter, name := "Studio", slug := "studio" }

def mixed : Database where
  orgs := [studio]
  events := [party, trial, empty]
  assets :=
    [photo "kept" "party" 5, { photo "gone" "party" 7 with deletedAt := some 8 },
      photo "old" "trial" 11]
  eventIds := by decide
  orgIds := by decide

theorem figures_agree_mixed :
    ∃ row line,
      mixed.listWithUsage.filter (fun row => row.org.id = "studio") = [row] ∧
      mixed.getOrganizationBreakdown.filter (fun line => line.orgId = "studio") = [line] ∧
      (mixed.getOrgStorage "studio").bytes = mixed.getOrgStorageBytes "studio" ∧
      ((mixed.getOrgUsageByEvent "studio").map EventUsage.bytes).sum =
        mixed.getOrgStorageBytes "studio" ∧
      row.usedBytes = mixed.getOrgStorageBytes "studio" ∧
      line.storageBytes = mixed.getOrgStorageBytes "studio" ∧
      (mixed.getOrgUsageByEvent "studio").length = mixed.countForOrg "studio" ∧
      row.usedEvents = mixed.countForOrg "studio" ∧
      line.eventCount = mixed.countForOrg "studio" :=
  figures_agree mixed studio List.mem_cons_self rfl

example : mixed.getOrgStorageBytes "studio" = 5 ∧ mixed.countForOrg "studio" = 2 := by
  decide +kernel

end Database

end EventLens.Tenants
