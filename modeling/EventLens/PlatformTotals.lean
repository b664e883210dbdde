import EventLens.UsageFigures

/-!
The totals of the whole platform beside its rows by organisation. The totals
count what is live of any organisation, the rows what is live of the live ones:
they add up as long as no live event and no person is left of a removed one.
-/

namespace EventLens.Tenants

open Relational
open Auth (OrgChange OrgWorld)

structure PlatformTotals where
  organizations : ℕ
  users : ℕ
  events : ℕ
  assets : ℕ
  storageBytes : ℕ
  people : ℕ
  participants : ℕ
deriving DecidableEq, Repr

structure PlatformStats extends PlatformTotals where
  byOrganization : List OrgBreakdown
deriving DecidableEq, Repr

namespace Database

variable (db : Database)

def getTotals : PlatformTotals :=
  { organizations := (db.orgs.filter (fun org => org.deleted = false)).length
    users := (db.users.filter (fun user => user.deleted = false)).length
    events := (db.events.filter (fun event => event.deletedAt = none)).length
    assets := ((innerJoin db.assets db.events (fun asset event => event.id = asset.eventId)).filter
      (fun row => row.1.deletedAt = none ∧ row.2.deletedAt = none)).length
    storageBytes := total (fun row => some row.1.fileSize)
      ((innerJoin db.assets db.events (fun asset event => event.id = asset.eventId)).filter
        (fun row => row.1.deletedAt = none ∧ row.2.deletedAt = none))
    people := db.persons.length
    participants :=
      ((innerJoin db.participants db.events (fun guest event => event.id = guest.eventId)).filter
        (fun row => row.1.deleted = false ∧ row.2.deletedAt = none)).length }

def getStats : PlatformStats :=
  { toPlatformTotals := db.getTotals, byOrganization := db.getOrganizationBreakdown }

end Database

/-- Each total is the sum of its column. -/
structure PlatformStats.AddsUp (stats : PlatformStats) : Prop where
  events : stats.events = (stats.byOrganization.map OrgBreakdown.eventCount).sum
  assets : stats.assets = (stats.byOrganization.map OrgBreakdown.assetCount).sum
  storageBytes : stats.storageBytes = (stats.byOrganization.map OrgBreakdown.storageBytes).sum
  people : stats.people = (stats.byOrganization.map OrgBreakdown.personCount).sum
  participants : stats.participants = (stats.byOrganization.map OrgBreakdown.participantCount).sum

/-- The organisation is there and not removed. -/
def TenantStore.Open (s : TenantStore) (orgId : String) : Prop :=
  ∃ org ∈ s.orgs, org.id = orgId ∧ org.deleted = false

/-- Every live event and every person is of an organisation that is not removed. -/
structure TenantStore.Sheltered (s : TenantStore) : Prop where
  events : ∀ event ∈ s.events, event.deletedAt = none → s.Open event.orgId
  persons : ∀ person ∈ s.persons, s.Open person.orgId

section Columns

variable {db : Database} {α : Type}

theorem mem_open {orgId : String} :
    orgId ∈ (db.orgs.filter (fun org => org.deleted = false)).map (fun org => org.id) ↔
    db.Open orgId := by
  simp only [List.mem_map, List.mem_filter, decide_eq_true_eq, TenantStore.Open]
  constructor
  · rintro ⟨org, ⟨horg, hlive⟩, hid⟩
    exact ⟨org, horg, hid, hlive⟩
  · rintro ⟨org, horg, hid, hlive⟩
    exact ⟨org, ⟨horg, hlive⟩, hid⟩

/-- The sum of a column is that of the rows of open organisations. -/
theorem column_sum (column : OrgBreakdown → ℕ) (rows : List α) (key : α → String) (weight : α → ℕ)
    (hcolumn : ∀ org, column (db.orgBreakdown org) =
      ((rows.filter (fun row => key row = org.id)).map weight).sum) :
    (db.getStats.byOrganization.map column).sum =
      ((rows.filter (fun row => key row ∈ (db.orgs.filter (fun org => org.deleted = false)).map
        (fun org => org.id))).map weight).sum := by
  have hids : ((db.orgs.filter (fun org => org.deleted = false)).map (fun org => org.id)).Nodup :=
    db.orgIds.sublist (List.filter_sublist.map _)
  have hlisted : db.getStats.byOrganization.Perm
      ((db.orgs.filter (fun org => org.deleted = false)).map db.orgBreakdown) :=
    (List.perm_insertionSort _ _).map _
  rw [← sum_keys hids, (hlisted.map column).sum_eq, List.map_map, List.map_map]
  exact congrArg List.sum (List.map_congr_left fun org _ => hcolumn org)

/-- A column adds up where every row is of an open organisation. -/
theorem column_total (column : OrgBreakdown → ℕ) (rows : List α) (key : α → String) (weight : α → ℕ)
    (hcolumn : ∀ org, column (db.orgBreakdown org) =
      ((rows.filter (fun row => key row = org.id)).map weight).sum)
    (hopen : ∀ row ∈ rows, db.Open (key row)) :
    (rows.map weight).sum = (db.getStats.byOrganization.map column).sum := by
  rw [column_sum column rows key weight hcolumn,
    List.filter_eq_self.mpr fun row hrow => decide_eq_true (mem_open.mpr (hopen row hrow))]

/-- A column that counts adds up nowhere else. -/
theorem open_of_count (column : OrgBreakdown → ℕ) (rows : List α) (key : α → String)
    (hcolumn : ∀ org, column (db.orgBreakdown org) =
      ((rows.filter (fun row => key row = org.id)).map (fun _ => 1)).sum)
    (htotal : rows.length = (db.getStats.byOrganization.map column).sum) :
    ∀ row ∈ rows, db.Open (key row) := by
  rw [column_sum column rows key _ hcolumn] at htotal
  simp only [List.map_const', List.sum_replicate, smul_eq_mul, mul_one] at htotal
  intro row hrow
  have hall := List.length_filter_eq_length_iff.mp htotal.symm row hrow
  exact mem_open.mp (of_decide_eq_true hall)

theorem eventCount_column (org : Auth.Organization) : (db.orgBreakdown org).eventCount =
    (((db.events.filter (fun event => event.deletedAt = none)).filter
      (fun event => event.orgId = org.id)).map (fun _ => 1)).sum := by
  simp [Database.orgBreakdown, List.filter_filter]

theorem personCount_column (org : Auth.Organization) : (db.orgBreakdown org).personCount =
    ((db.persons.filter (fun person => person.orgId = org.id)).map (fun _ => 1)).sum := by
  simp [Database.orgBreakdown]

/-- What is live of a table, beside its live events. -/
def liveRows (db : Database) (table : List α) (on : α → EventRow → Bool) (live : α → Bool) :
    List (α × EventRow) :=
  (innerJoin table db.events on).filter (fun row => live row.1 ∧ row.2.deletedAt = none)

theorem open_liveRows {table : List α} {on : α → EventRow → Bool} {live : α → Bool}
    (h : db.Sheltered) :
    ∀ row ∈ liveRows db table on live, db.Open row.2.orgId := by
  rintro ⟨a, event⟩ hrow
  obtain ⟨hjoin, hlive⟩ := List.mem_filter.mp hrow
  obtain ⟨b, _, hpair⟩ := List.mem_flatMap.mp hjoin
  obtain ⟨event', hevent, heq⟩ := List.mem_map.mp hpair
  obtain ⟨rfl, rfl⟩ := Prod.mk.inj heq
  exact h.events event' (List.mem_filter.mp hevent).1 (of_decide_eq_true hlive).2

/-- The totals add up exactly where nothing live is left of a removed organisation. -/
theorem addsUp_iff : db.getStats.AddsUp ↔ db.Sheltered := by
  constructor
  · intro h
    have hevents :=
      open_of_count OrgBreakdown.eventCount _ EventRow.orgId eventCount_column h.events
    refine ⟨fun event hevent hlive => hevents event
      (List.mem_filter.mpr ⟨hevent, decide_eq_true hlive⟩), ?_⟩
    exact open_of_count OrgBreakdown.personCount _ Person.orgId personCount_column h.people
  · intro h
    have hevents :
      ∀ event ∈ db.events.filter (fun event => event.deletedAt = none), db.Open event.orgId :=
      fun event hevent => h.events event (List.mem_filter.mp hevent).1
        (of_decide_eq_true (List.mem_filter.mp hevent).2)
    let assets := liveRows db db.assets (fun asset event => event.id = asset.eventId)
      (fun asset => asset.deletedAt = none)
    let guests := liveRows db db.participants (fun guest event => event.id = guest.eventId)
      (fun guest => guest.deleted = false)
    have hassets :=
      column_total OrgBreakdown.assetCount assets (fun row => row.2.orgId) (fun _ => 1)
      (fun org => by simp [Database.orgBreakdown, assets, liveRows, List.filter_filter])
        (open_liveRows h)
    have hbytes := column_total OrgBreakdown.storageBytes assets (fun row => row.2.orgId)
      (fun row => row.1.fileSize)
      (fun org => by simp [Database.orgBreakdown, assets, liveRows, List.filter_filter, total_some])
      (open_liveRows h)
    have hguests := column_total OrgBreakdown.participantCount guests (fun row => row.2.orgId)
      (fun _ => 1) (fun org => by
        simp [Database.orgBreakdown, guests, liveRows, List.filter_filter])
      (open_liveRows h)
    refine ⟨?_, ?_, ?_, ?_, ?_⟩
    · rw [← column_total OrgBreakdown.eventCount _ EventRow.orgId _ eventCount_column hevents]
      simp [Database.getStats, Database.getTotals]
    · rw [← hassets]
      simp [Database.getStats, Database.getTotals, assets, liveRows]
    · rw [← hbytes]
      simp [Database.getStats, Database.getTotals, assets, liveRows, total_some]
    · rw [← column_total OrgBreakdown.personCount _ Person.orgId _ personCount_column h.persons]
      simp [Database.getStats, Database.getTotals]
    · rw [← hguests]
      simp [Database.getStats, Database.getTotals, guests, liveRows]

end Columns

end EventLens.Tenants
