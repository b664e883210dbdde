import EventLens.IngestStages
import Mathlib

/-!
Quotas. An upload is checked against the bytes in use and a new event against
the number of events, and both are written in a later statement; an import is
not checked. As long as nothing has come in between the check and the write,
and an import finds room, an organisation stays within its limits.
-/

namespace EventLens.Ingest

open Programs Contract
open Import (ImportOp ImportRes ImportError)

/-- The organisation uses no more than it may. -/
def WithinLimits (s : IngestStore) (orgId : String) : Prop :=
  ∀ org, s.getOrg orgId = some org →
    s.getOrgStorageBytes orgId ≤ (limitsFor org).storageBytes ∧
      s.countForOrg orgId ≤ (limitsFor org).events

/-- An asset that is inserted for this organisation finds the space its check
has seen or, unchecked, room. -/
def Fits (s : IngestStore) (orgId : String) (l : Load) (used : Option ℕ) : Prop :=
  s.liveEvent orgId l.eventId = true → match used with
    | some used => s.getOrgStorageBytes orgId ≤ used
    | none => ∀ org ∈ s.getOrg orgId,
        s.getOrgStorageBytes orgId + l.size ≤ (limitsFor org).storageBytes

instance (s : IngestStore) (orgId : String) (l : Load) (used : Option ℕ) :
    Decidable (Fits s orgId l used) := by
  unfold Fits
  cases used <;> infer_instance

def Stage.InTime (s : IngestStore) (orgId : String) : Stage → IngestEvent → Prop
  | .placed l used _ _, ⟨.createAsset _, r⟩ =>
    (r : Except ImportError Unit).toBool = true → Fits s orgId l used
  | .placed l used _ _, ⟨.imports (.createAsset _), r⟩ =>
    (r : Except ImportError Unit).toBool = true → Fits s orgId l used
  | .planned k count, ⟨.createEvent _ _, _⟩ => k = orgId → s.countForOrg orgId ≤ count
  | _, _ => True

instance (s : IngestStore) (orgId : String) (g : Stage) (e : IngestEvent) :
    Decidable (g.InTime s orgId e) := by
  unfold Stage.InTime
  split <;> infer_instance

def InTime (orgId : String) (p : IngestPool) (t : IngestThread) (e : IngestEvent) : Prop :=
  (t.past.foldl Stage.note t.call.first).InTime p.state orgId e

instance (orgId : String) (p : IngestPool) (t : IngestThread) (e : IngestEvent) :
    Decidable (InTime orgId p t e) := by
  unfold InTime
  infer_instance

/-- The id is not one that is still to be given out. -/
def Issued (s : IngestStore) (id : String) : Prop := ∀ n, id = toString n → n < s.nextUuid

/-- Events have ids of their own, and no asset belongs to an event to come. -/
structure Catalogued (s : IngestStore) : Prop where
  ids : (s.events.map EventRow.id).Nodup
  issued : ∀ event ∈ s.events, Issued s event.id
  homed : ∀ a ∈ s.assets, Issued s a.eventId

/-! What the calls in progress have read. -/

section Reading

variable {s s' : IngestStore}

/-- The event, if still there, belongs to the organisation of the content. -/
def KnownEvent (s : IngestStore) (l : Load) : Prop :=
  Issued s l.eventId ∧ ∀ event ∈ s.events, event.id = l.eventId → event.orgId = l.orgId

/-- A check has found this much in use, and room for the content. -/
def Checked (s : IngestStore) (l : Load) (used : Option ℕ) : Prop :=
  ∀ n ∈ used, KnownEvent s l ∧ ∃ org, s.getOrg l.orgId = some org ∧
    n + l.size ≤ (limitsFor org).storageBytes

def Stage.Holds (s : IngestStore) : Stage → Prop
  | .looking l => ∀ path, l.origin = .upload path → KnownEvent s l
  | .weighing l org _ => KnownEvent s l ∧ ∀ o ∈ org, s.getOrg l.orgId = some o
  | .unseen l used | .drawn l used _ | .placed l used _ _ => Checked s l used
  | .planning orgId org => ∀ o ∈ org, s.getOrg orgId = some o
  | .planned orgId count => ∃ org, s.getOrg orgId = some org ∧ count < (limitsFor org).events
  | _ => True

/-- Organisations stay, and an event that is there is new or was there. -/
structure Extends (s s' : IngestStore) : Prop where
  orgs : s'.orgs = s.orgs
  nextUuid : s.nextUuid ≤ s'.nextUuid
  events : ∀ event ∈ s'.events, event ∈ s.events ∨ event.id = toString s.nextUuid

theorem Issued.mono {id : String} (h : Issued s id) (hs : Extends s s') : Issued s' id :=
  fun n hn => (h n hn).trans_le hs.nextUuid

theorem getOrg_congr (h : s'.orgs = s.orgs) (orgId : String) :
    s'.getOrg orgId = s.getOrg orgId := by
  rw [IngestStore.getOrg, IngestStore.getOrg, h]

theorem KnownEvent.mono {l : Load} (h : KnownEvent s l) (hs : Extends s s') : KnownEvent s' l := by
  refine ⟨h.1.mono hs, fun event hevent hid => ?_⟩
  rcases hs.events event hevent with hold | hnew
  · exact h.2 event hold hid
  · exact absurd (h.1 _ (hid.symm.trans hnew)) (lt_irrefl _)

theorem Checked.mono {l : Load} {used : Option ℕ} (h : Checked s l used) (hs : Extends s s') :
    Checked s' l used := by
  intro n hn
  obtain ⟨hevent, org, horg, hfits⟩ := h n hn
  exact ⟨hevent.mono hs, org, (getOrg_congr hs.orgs _).trans horg, hfits⟩

theorem Stage.Holds.mono {g : Stage} (h : g.Holds s) (hs : Extends s s') : g.Holds s' := by
  cases g with
  | looking l => exact fun path hpath => (h path hpath).mono hs
  | weighing l org used =>
    exact ⟨h.1.mono hs, fun o ho => (getOrg_congr hs.orgs _).trans (h.2 o ho)⟩
  | unseen l used => exact Checked.mono h hs
  | drawn l used id => exact Checked.mono h hs
  | placed l used id key => exact Checked.mono h hs
  | planning orgId org => exact fun o ho => (getOrg_congr hs.orgs _).trans (h o ho)
  | planned orgId count =>
    obtain ⟨org, horg, hcount⟩ := h
    exact ⟨org, (getOrg_congr hs.orgs _).trans horg, hcount⟩
  | _ => trivial

end Reading

/-! What a statement changes. -/

section Effects

variable {s s' : IngestStore} {orgId : String}

/-- Statements on events and assets. -/
def IngestOp.changes : IngestOp → Bool
  | .createAsset _ | .imports (.createAsset _) | .createEvent _ _ | .hardDelete _ _
  | .softDeleteMany _ _ => true
  | _ => false

structure SameCatalogue (s s' : IngestStore) : Prop where
  orgs : s'.orgs = s.orgs
  events : s'.events = s.events
  assets : s'.assets = s.assets
  nextUuid : s.nextUuid ≤ s'.nextUuid

theorem sameCatalogue_self : SameCatalogue s s := ⟨rfl, rfl, rfl, le_rfl⟩

theorem sameCatalogue_imports {o : ImportOp} (ho : (IngestOp.imports o).changes = false)
    (r : ImportRes o) : SameCatalogue s (importedHandler o r s).2 := by
  cases o with
  | downloadToFile token fileId path =>
    rcases downloadToFile_cases token fileId path r s with ⟨e, he⟩ | ⟨content, -, he⟩
    · exact he ▸ sameCatalogue_self
    · exact he ▸ ⟨rfl, rfl, rfl, le_rfl⟩
  | hashFile path =>
    rcases hashFile_cases path r s with ⟨e, he⟩ | ⟨content, -, he⟩
    · exact he ▸ sameCatalogue_self
    · exact he ▸ sameCatalogue_self
  | findByChecksum eventId checksum => cases r <;> exact ⟨rfl, rfl, rfl, le_rfl⟩
  | randomUUID => exact ⟨rfl, rfl, rfl, Nat.le_succ _⟩
  | putFile path key mimeType =>
    rcases putFile_cases path key mimeType r s with ⟨e, he⟩ | ⟨content, -, he⟩
    · exact he ▸ sameCatalogue_self
    · exact he ▸ ⟨rfl, rfl, rfl, le_rfl⟩
  | createAsset asset => cases ho
  | _ => exact ⟨rfl, rfl, rfl, le_rfl⟩

theorem sameCatalogue_handler {o : IngestOp} (ho : o.changes = false) (r : IngestRes o) :
    SameCatalogue s (ingestHandler o r s).2 := by
  cases o with
  | imports o => exact sameCatalogue_imports ho r
  | createAsset row => cases ho
  | createEvent orgId dto => cases ho
  | hardDelete orgId eventId => cases ho
  | softDeleteMany eventId ids => cases ho
  | listObjects pfx cursor => cases r <;> exact sameCatalogue_self
  | _ => exact ⟨rfl, rfl, rfl, le_rfl⟩

theorem SameCatalogue.extends (h : SameCatalogue s s') : Extends s s' where
  orgs := h.orgs
  nextUuid := h.nextUuid
  events _ hevent := .inl (h.events ▸ hevent)

theorem SameCatalogue.catalogued (h : SameCatalogue s s') (hs : Catalogued s) : Catalogued s' where
  ids := by
    rw [h.events]
    exact hs.ids
  issued event hevent := (hs.issued event (h.events ▸ hevent)).mono h.extends
  homed a ha := (hs.homed a (h.assets ▸ ha)).mono h.extends

theorem bytes_congr (hevents : s'.events = s.events) (hassets : s'.assets = s.assets)
    (orgId : String) : s'.getOrgStorageBytes orgId = s.getOrgStorageBytes orgId := by
  have hlive : s'.liveEvent orgId = s.liveEvent orgId := by
    funext eventId
    rw [IngestStore.liveEvent, IngestStore.liveEvent, hevents]
  rw [IngestStore.getOrgStorageBytes, IngestStore.getOrgStorageBytes, IngestStore.liveAssets,
    IngestStore.liveAssets, hassets, hlive]

theorem SameCatalogue.within (h : SameCatalogue s s') (hs : WithinLimits s orgId) :
    WithinLimits s' orgId := by
  intro org horg
  rw [getOrg_congr h.orgs] at horg
  have hbytes := bytes_congr h.events h.assets orgId
  have hcount : s'.countForOrg orgId = s.countForOrg orgId := by
    rw [IngestStore.countForOrg, IngestStore.countForOrg, h.events]
  rw [hbytes, hcount]
  exact hs org horg

theorem bytes_insertAsset {row : AssetRow} (hlive : row.deleted = false) :
    (s.insertAsset row).getOrgStorageBytes orgId =
      s.getOrgStorageBytes orgId + if s.liveEvent orgId row.eventId then row.fileSize else 0 := by
  have hassets : (s.insertAsset row).liveAssets orgId =
      s.liveAssets orgId ++ if s.liveEvent orgId row.eventId then [row] else [] := by
    change (s.assets ++ [row]).filter (fun a => a.deleted = false ∧ s.liveEvent orgId a.eventId) = _
    rw [List.filter_append, List.filter_singleton]
    simp only [hlive, true_and, Bool.decide_eq_true, Bool.cond_eq_ite]
    rfl
  rw [IngestStore.getOrgStorageBytes, hassets, List.map_append, List.sum_append]
  split
  · rw [List.map_singleton, List.sum_singleton]
    rfl
  · rfl

theorem sum_filter_le {α : Type} {rows : List α} {p q : α → Bool} (f : α → ℕ)
    (h : ∀ a ∈ rows, q a = true → p a = true) :
    ((rows.filter q).map f).sum ≤ ((rows.filter p).map f).sum := by
  induction rows with
  | nil => exact le_rfl
  | cons a rows ih =>
    have hrest := ih fun b hb => h b (List.mem_cons_of_mem a hb)
    by_cases hq : q a = true
    · rw [List.filter_cons_of_pos hq, List.filter_cons_of_pos (h a List.mem_cons_self hq)]
      simp only [List.map_cons, List.sum_cons]
      omega
    · rw [List.filter_cons_of_neg hq]
      by_cases hp : p a = true
      · rw [List.filter_cons_of_pos hp]
        simp only [List.map_cons, List.sum_cons]
        omega
      · rw [List.filter_cons_of_neg hp]
        exact hrest

theorem liveEvent_filter {eventId k : String}
    (h : (s.events.filter (fun event => event.id ≠ k)).any (fun event => event.id = eventId ∧
      event.orgId = orgId ∧ event.deleted = false) = true) : s.liveEvent orgId eventId = true := by
  obtain ⟨event, hevent, hlive⟩ := List.any_eq_true.mp h
  exact List.any_eq_true.mpr ⟨event, (List.mem_filter.mp hevent).1, hlive⟩

theorem bytes_hardDelete (k eventId : String) :
    (s.hardDelete k eventId).getOrgStorageBytes orgId ≤ s.getOrgStorageBytes orgId := by
  rw [IngestStore.hardDelete]
  split
  · change (((s.assets.filter (fun a => a.eventId ≠ eventId)).filter _).map _).sum ≤ _
    rw [List.filter_filter]
    refine sum_filter_le AssetRow.fileSize fun a _ ha => ?_
    obtain ⟨hcounts, -⟩ := Bool.and_eq_true_iff.mp ha
    obtain ⟨hlive, hevent⟩ := of_decide_eq_true hcounts
    exact decide_eq_true ⟨hlive, liveEvent_filter hevent⟩
  · exact le_rfl

theorem count_hardDelete (k eventId : String) :
    (s.hardDelete k eventId).countForOrg orgId ≤ s.countForOrg orgId := by
  rw [IngestStore.hardDelete]
  split
  · exact List.filter_sublist.countP_le
  · exact le_rfl

theorem bytes_softDeleteMany (eventId : String) (ids : List String) :
    (s.softDeleteMany eventId ids).getOrgStorageBytes orgId ≤ s.getOrgStorageBytes orgId := by
  have hrows : ∀ rows : List AssetRow,
      (((rows.map (fun a => if a.eventId = eventId ∧ a.id ∈ ids then
          { a with deleted := true } else a)).filter
        (fun a => a.deleted = false ∧ s.liveEvent orgId a.eventId)).map AssetRow.fileSize).sum ≤
      ((rows.filter (fun a => a.deleted = false ∧ s.liveEvent orgId a.eventId)).map
        AssetRow.fileSize).sum := by
    intro rows
    induction rows with
    | nil => exact le_rfl
    | cons a rows ih =>
      rw [List.map_cons, List.filter_cons, List.filter_cons]
      by_cases hselected : a.eventId = eventId ∧ a.id ∈ ids
      · rw [if_pos hselected, if_neg (by simp)]
        split
        · rw [List.map_cons, List.sum_cons]
          omega
        · exact ih
      · rw [if_neg hselected]
        split
        · rw [List.map_cons, List.sum_cons, List.map_cons, List.sum_cons]
          omega
        · exact ih
  exact hrows s.assets

theorem bytes_createEvent (hs : Catalogued s) (k : String) (dto : CreateEvent) :
    (s.createEvent k dto).getOrgStorageBytes orgId = s.getOrgStorageBytes orgId := by
  have hassets : (s.createEvent k dto).liveAssets orgId = s.liveAssets orgId := by
    refine List.filter_congr fun a ha => ?_
    have hold : toString s.nextUuid ≠ a.eventId :=
      fun heq => absurd (hs.homed a ha _ heq.symm) (lt_irrefl _)
    have hlive : (s.createEvent k dto).liveEvent orgId a.eventId = s.liveEvent orgId a.eventId := by
      rw [IngestStore.liveEvent, IngestStore.createEvent, List.any_append, List.any_cons,
        decide_eq_false fun hboth => hold hboth.1, List.any_nil, Bool.or_false, Bool.or_false]
      rfl
    rw [hlive]
  rw [IngestStore.getOrgStorageBytes, hassets]
  rfl

theorem count_createEvent (k : String) (dto : CreateEvent) :
    (s.createEvent k dto).countForOrg orgId = s.countForOrg orgId + if k = orgId then 1 else 0 := by
  rw [IngestStore.countForOrg, IngestStore.createEvent, List.countP_append, List.countP_singleton]
  simp [IngestStore.countForOrg]

theorem catalogued_insertAsset {row : AssetRow} (hs : Catalogued s)
    (hevent : ∃ event ∈ s.events, event.id = row.eventId) : Catalogued (s.insertAsset row) := by
  refine ⟨hs.ids, hs.issued, fun a ha => ?_⟩
  rcases List.mem_append.mp ha with ha | ha
  · exact hs.homed a ha
  · obtain ⟨event, hevent, hid⟩ := hevent
    rw [List.mem_singleton.mp ha, ← hid]
    exact hs.issued event hevent

theorem catalogued_createEvent (hs : Catalogued s) (k : String) (dto : CreateEvent) :
    Catalogued (s.createEvent k dto) := by
  have hlater : ∀ id, Issued s id → Issued (s.createEvent k dto) id :=
    fun id hid n hn => Nat.lt_succ_of_lt (hid n hn)
  refine ⟨?_, fun event hevent => ?_, fun a ha => hlater _ (hs.homed a ha)⟩
  · rw [IngestStore.createEvent, List.map_append]
    refine hs.ids.append (List.nodup_singleton _) fun id hold hnew => ?_
    obtain ⟨event, hevent, rfl⟩ := List.mem_map.mp hold
    exact absurd (hs.issued event hevent _ (List.mem_singleton.mp hnew)) (lt_irrefl _)
  · rcases List.mem_append.mp hevent with hevent | hevent
    · exact hlater _ (hs.issued event hevent)
    · rw [List.mem_singleton.mp hevent]
      intro n hn
      rw [← Import.toString_injective hn]
      exact Nat.lt_succ_self _

theorem catalogued_hardDelete (hs : Catalogued s) (k eventId : String) :
    Catalogued (s.hardDelete k eventId) := by
  rw [IngestStore.hardDelete]
  split
  · refine ⟨hs.ids.sublist (List.filter_sublist.map _), fun event hevent => ?_, fun a ha => ?_⟩
    · exact hs.issued event (List.mem_filter.mp hevent).1
    · exact hs.homed a (List.mem_filter.mp ha).1
  · exact hs

theorem extends_hardDelete (k eventId : String) : Extends s (s.hardDelete k eventId) := by
  rw [IngestStore.hardDelete]
  split
  · exact ⟨rfl, le_rfl, fun event hevent => .inl (List.mem_filter.mp hevent).1⟩
  · exact ⟨rfl, le_rfl, fun event hevent => .inl hevent⟩

theorem catalogued_softDeleteMany (hs : Catalogued s) (eventId : String) (ids : List String) :
    Catalogued (s.softDeleteMany eventId ids) := by
  refine ⟨hs.ids, hs.issued, fun a ha => ?_⟩
  obtain ⟨before, hbefore, rfl⟩ := List.mem_map.mp ha
  split
  · exact hs.homed before hbefore
  · exact hs.homed before hbefore

end Effects

/-! What every step keeps. -/

structure Metered (orgId : String) (S : Multiset Stage) (s : IngestStore) : Prop where
  catalogued : Catalogued s
  within : WithinLimits s orgId
  holds : ∀ g ∈ S, g.Holds s

section Steps

variable {orgId : String} {g g' : Stage} {N S : Multiset Stage} {s s' : IngestStore}

theorem Metered.next (h : Metered orgId (g ::ₘ N) s) (hs : Extends s s')
    (hcatalogued : Catalogued s')
    (hwithin : WithinLimits s' orgId) (hholds : g'.Holds s') : Metered orgId (g' ::ₘ N) s' := by
  refine ⟨hcatalogued, hwithin, fun k hk => ?_⟩
  rcases Multiset.mem_cons.mp hk with rfl | hk
  · exact hholds
  · exact (h.holds k (Multiset.mem_cons_of_mem hk)).mono hs

/-- Statements that leave events and assets alone. -/
theorem Metered.quiet (h : Metered orgId (g ::ₘ N) s) {o : IngestOp} (ho : o.changes = false)
    (r : IngestRes o) (hholds : g'.Holds s) : Metered orgId (g' ::ₘ N) (ingestHandler o r s).2 := by
  have hsame := sameCatalogue_handler (s := s) ho r
  exact h.next hsame.extends (hsame.catalogued h.catalogued) (hsame.within h.within)
    (hholds.mono hsame.extends)

theorem Metered.removed (h : Metered orgId (g ::ₘ N) s) (hs : Extends s s')
    (hcatalogued : Catalogued s')
    (hbytes : s'.getOrgStorageBytes orgId ≤ s.getOrgStorageBytes orgId)
    (hcount : s'.countForOrg orgId ≤ s.countForOrg orgId) (hholds : g'.Holds s') :
    Metered orgId (g' ::ₘ N) s' := by
  refine h.next hs hcatalogued (fun org horg => ?_) hholds
  rw [getOrg_congr hs.orgs] at horg
  exact ⟨hbytes.trans (h.within org horg).1, hcount.trans (h.within org horg).2⟩

/-- The content is counted for the organisation whose limit was checked. -/
theorem KnownEvent.live {l : Load} (h : KnownEvent s l)
    (hlive : s.liveEvent orgId l.eventId = true) :
    l.orgId = orgId := by
  obtain ⟨event, hevent, hboth⟩ := List.any_eq_true.mp hlive
  obtain ⟨hid, horg, -⟩ := of_decide_eq_true hboth
  exact (h.2 event hevent hid).symm.trans horg

/-- The insertion of an asset that finds room. -/
theorem Metered.inserted {l : Load} {used : Option ℕ} {id key : String}
    (h : Metered orgId (.placed l used id key ::ₘ N) s) {row : AssetRow} (hrow : RowOf l id key row)
    (r : Except ImportError Unit)
    (hfits : (insertRow row r s).1.toBool = true → Fits s orgId l used) :
    Metered orgId (Stage.insertion l id key (insertRow row r s).1 ::ₘ N) (insertRow row r s).2 := by
  have hchecked : Checked s l used := h.holds _ (Multiset.mem_cons_self ..)
  have hfailed : l.failed.Holds s := by
    rw [Load.failed]
    split <;> trivial
  rcases insertRow_cases row r s with ⟨e, he⟩ | ⟨hanswer, -, hevent⟩
  · rw [he]
    refine h.next ⟨rfl, le_rfl, fun _ hevent => .inl hevent⟩ h.catalogued h.within ?_
    cases e with
    | assetChecksumConstraint text => trivial
    | rateLimit ms => exact hfailed
    | other text => exact hfailed
  · rw [hanswer] at hfits ⊢
    refine h.next ⟨rfl, le_rfl, fun _ hevent => .inl hevent⟩
      (catalogued_insertAsset h.catalogued hevent) (fun org horg => ?_) trivial
    obtain ⟨hbytes, hcount⟩ := h.within org horg
    refine ⟨?_, hcount⟩
    rw [bytes_insertAsset hrow.live, hrow.eventId, hrow.fileSize]
    by_cases hlive : s.liveEvent orgId l.eventId = true
    · rw [if_pos hlive]
      have hroom := hfits rfl hlive
      cases used with
      | none => exact hroom org horg
      | some used =>
        obtain ⟨hknown, checked, hchecked, hsize⟩ := hchecked used rfl
        rw [hknown.live hlive] at hchecked
        obtain rfl : checked = org := Option.some.inj (hchecked.symm.trans horg)
        exact (Nat.add_le_add_right hroom _).trans hsize
    · rw [if_neg hlive]
      exact hbytes

/-- The creation of an event that finds a free place. -/
theorem Metered.planned {k : String} {count : ℕ} (h : Metered orgId (.planned k count ::ₘ N) s)
    {dto : CreateEvent} (r : Except ImportError EventRow)
    (hfree : k = orgId → s.countForOrg orgId ≤ count) :
    Metered orgId (.idle ::ₘ N) (ingestHandler (.createEvent k dto) r s).2 := by
  obtain ⟨org, horg, hcount⟩ := h.holds _ (Multiset.mem_cons_self ..)
  have hsame : Metered orgId (.idle ::ₘ N) s :=
    h.next ⟨rfl, le_rfl, fun _ hevent => .inl hevent⟩ h.catalogued h.within trivial
  cases r with
  | error e => exact hsame
  | ok _ =>
    have hstate : ∀ event : EventRow, (ingestHandler (.createEvent k dto) (.ok event) s).2 =
        if s.slugTaken dto.slug then s else s.createEvent k dto := by
      intro event
      change (if s.slugTaken dto.slug then _ else _ : Except ImportError EventRow × IngestStore).2 =
        _
      split <;> rfl
    rw [hstate]
    split
    · exact hsame
    · refine h.next ⟨rfl, Nat.le_succ _, fun event hevent => ?_⟩
        (catalogued_createEvent h.catalogued k dto) (fun org' horg' => ?_) trivial
      · rcases List.mem_append.mp hevent with hevent | hevent
        · exact .inl hevent
        · rw [List.mem_singleton.mp hevent]
          exact .inr rfl
      · obtain ⟨hbytes, hevents⟩ := h.within org' horg'
        rw [bytes_createEvent h.catalogued, count_createEvent]
        refine ⟨hbytes, ?_⟩
        by_cases hk : k = orgId
        · rw [if_pos hk]
          obtain rfl : org = org' := Option.some.inj (horg.symm.trans (hk ▸ horg'))
          exact (Nat.succ_le_succ (hfree hk)).trans hcount
        · rw [if_neg hk]
          exact hevents

/-- An event that is found is known: ids are unique. -/
theorem KnownEvent.found {l : Load} {event : EventRow} (hs : Catalogued s)
    (h : s.getEvent l.eventId = some event) (horg : l.orgId = event.orgId) : KnownEvent s l := by
  have hmem := List.mem_of_find?_eq_some h
  have hfound := List.find?_some (p := fun e : EventRow => e.id = l.eventId ∧ e.deleted = false) h
  obtain ⟨hid, -⟩ := of_decide_eq_true hfound
  refine ⟨hid ▸ hs.issued event hmem, fun other hother hid' => ?_⟩
  rw [horg, List.inj_on_of_nodup_map hs.ids hother hmem (hid'.trans hid.symm)]

theorem Load.failed_holds (l : Load) : l.failed.Holds s := by
  rw [Load.failed]
  split <;> trivial

/-- The first statements of an import know nothing of the quota. -/
theorem holds_fetching {x : Import.ItemId} {o : ImportOp} (r : ImportRes o)
    (hg : (∃ item, g = .chosen x item) ∨ g = .starting x ∨ (∃ item job, g = .admitted x item job) ∨
      ∃ item job, g = .fetched x item job) :
    (g.note ⟨.imports o, r⟩).Holds s := by
  rcases hg with ⟨item, rfl⟩ | rfl | ⟨item, job, rfl⟩ | ⟨item, job, rfl⟩
  · cases o with
    | getJob j =>
      cases r with
      | none => trivial
      | some job =>
        change (if _ then _ else _ : Stage).Holds s
        split <;> trivial
    | _ => trivial
  · cases o with
    | getItem k =>
      cases r with
      | none => trivial
      | some item =>
        change (if _ then _ else _ : Stage).Holds s
        split <;> trivial
    | _ => trivial
  · cases o with
    | requireAccount accountId orgId => cases r <;> trivial
    | getFreshAccessToken accountId => cases r <;> trivial
    | makeStagingFolder => cases r <;> trivial
    | downloadToFile accountId fileId path => cases r <;> trivial
    | _ => trivial
  · cases o with
    | hashFile path => cases r <;> trivial
    | _ => trivial

/-- The checks of an upload. -/
theorem holds_weighed {l : Load} {org : Option Organization} {used : Option ℕ} {o : IngestOp}
    (r : IngestRes o) (hg : (Stage.weighing l org used).Holds s)
    (hpermit : (Stage.weighing l org used).Permits o) :
    ((Stage.weighing l org used).note ⟨o, (ingestHandler o r s).1⟩).Holds s := by
  obtain ⟨hknown, horg⟩ := hg
  cases o with
  | getOrg k =>
    obtain rfl : k = l.orgId := hpermit
    change ((Stage.weighing l org used).note ⟨.getOrg l.orgId, s.getOrg l.orgId⟩).Holds s
    cases hfound : s.getOrg l.orgId with
    | none => trivial
    | some found => exact ⟨hknown, fun o ho => hfound.trans ho⟩
  | getOrgStorageBytes k => exact ⟨hknown, horg⟩
  | countForOrg k =>
    cases org with
    | none => trivial
    | some org =>
      cases used with
      | none => trivial
      | some used =>
        change Stage.Holds s (if used + l.size ≤ (limitsFor org).storageBytes then _ else _)
        split
        · rename_i hfits
          intro n hn
          cases hn
          exact ⟨hknown, org, horg org rfl, hfits⟩
        · trivial
  | imports o => cases o <;> cases hpermit
  | _ => cases hpermit

/-- The checks of an event creation. -/
theorem holds_planned {k : String} {org : Option Organization} {o : IngestOp} (r : IngestRes o)
    (hg : (Stage.planning k org).Holds s) (hpermit : (Stage.planning k org).Permits o) :
    ((Stage.planning k org).note ⟨o, (ingestHandler o r s).1⟩).Holds s := by
  cases o with
  | getOrg k' =>
    obtain rfl : k' = k := hpermit
    change ((Stage.planning k' org).note ⟨.getOrg k', s.getOrg k'⟩).Holds s
    cases hfound : s.getOrg k' with
    | none => trivial
    | some found => exact fun o ho => hfound.trans ho
  | getOrgStorageBytes k' => exact hg
  | countForOrg k' =>
    cases org with
    | none => trivial
    | some org =>
      change Stage.Holds s (if s.countForOrg k' < (limitsFor org).events then _ else _)
      split
      · rename_i hfree
        exact ⟨org, hg org rfl, hfree⟩
      · trivial
  | imports o => cases o <;> cases hpermit
  | _ => cases hpermit

/-- The event that an upload has found is known. -/
theorem holds_asked {eventId : String} {file : StagedUpload} {o : IngestOp} (r : IngestRes o)
    (hs : Catalogued s)
    (hpermit : (Stage.asked eventId file).Permits o) :
    ((Stage.asked eventId file).note ⟨o, (ingestHandler o r s).1⟩).Holds s := by
  cases o with
  | getEvent k =>
    obtain rfl : k = eventId := hpermit
    change (Stage.note _ ⟨.getEvent k, s.getEvent k⟩).Holds s
    unfold Stage.note
    cases hevent : s.getEvent k with
    | none => trivial
    | some event => exact fun path _ => KnownEvent.found hs hevent rfl
  | imports o => cases o <;> cases hpermit
  | _ => cases hpermit

theorem holds_hashed {x : Import.ItemId} {item : Import.ImportItem} {job : Import.ImportJob}
    {checksum : String} {o : IngestOp} (r : IngestRes o)
    (hpermit : (Stage.hashed x item job checksum).Permits o) :
    ((Stage.hashed x item job checksum).note ⟨o, (ingestHandler o r s).1⟩).Holds s := by
  cases o with
  | imports o =>
    cases o with
    | fileSize path =>
      generalize (ingestHandler (.imports (.fileSize path)) r s).1 = answer
      cases answer with
      | ok size =>
        intro path hpath
        cases hpath
      | error e => trivial
    | _ => cases hpermit
  | _ => cases hpermit

/-- A load that is not there yet is weighed next. -/
theorem holds_looked {l : Load} {o : IngestOp} (r : IngestRes o)
    (hg : (Stage.looking l).Holds s)
    (hpermit : (Stage.looking l).Permits o) :
    ((Stage.looking l).note ⟨o, (ingestHandler o r s).1⟩).Holds s := by
  cases o with
  | imports o =>
    cases o with
    | findByChecksum eventId checksum =>
      generalize (ingestHandler (.imports (.findByChecksum eventId checksum)) r s).1 = answer
      cases answer with
      | ok existing =>
        cases existing with
        | some existing => trivial
        | none =>
          obtain ⟨eventId, orgId, checksum, size, origin⟩ := l
          cases origin with
          | upload path => exact ⟨hg path rfl, fun o ho => nomatch ho⟩
          | item x => exact fun n hn => nomatch hn
      | error e => exact l.failed_holds
    | _ => cases hpermit
  | _ => cases hpermit

theorem holds_drawn {l : Load} {used : Option ℕ} {id : String} {o : IngestOp} (r : IngestRes o)
    (hg : (Stage.drawn l used id).Holds s)
    (hpermit : (Stage.drawn l used id).Permits o) :
    ((Stage.drawn l used id).note ⟨o, (ingestHandler o r s).1⟩).Holds s := by
  cases o with
  | imports o =>
    cases o with
    | putFile path key mimeType =>
      generalize (ingestHandler (.imports (.putFile path key mimeType)) r s).1 = answer
      cases answer with
      | ok _ => exact hg
      | error e => exact l.failed_holds
    | _ => cases hpermit
  | _ => cases hpermit

theorem holds_stored {l : Load} {id key : String} {o : IngestOp} (r : IngestRes o)
    (hpermit : (Stage.stored l id key).Permits o) :
    ((Stage.stored l id key).note ⟨o, (ingestHandler o r s).1⟩).Holds s := by
  cases o with
  | imports o =>
    cases o with
    | queueAssetProcess assetId =>
      generalize (ingestHandler (.imports (.queueAssetProcess assetId)) r s).1 = answer
      cases answer with
      | ok _ => trivial
      | error e => exact l.failed_holds
    | removeFile path => trivial
    | markItem k dto => trivial
    | _ => cases hpermit
  | _ => cases hpermit

theorem holds_cleared {l : Load} {o : IngestOp} (r : IngestRes o)
    (hpermit : (Stage.cleared l).Permits o) :
    ((Stage.cleared l).note ⟨o, (ingestHandler o r s).1⟩).Holds s := by
  cases o with
  | imports o =>
    cases o with
    | removeFile path => trivial
    | findByChecksum eventId checksum =>
      generalize (ingestHandler (.imports (.findByChecksum eventId checksum)) r s).1 = answer
      cases answer with
      | ok winner => trivial
      | error e => exact l.failed_holds
    | _ => cases hpermit
  | _ => cases hpermit

/-- A statement on neither events nor assets leads to a stage that knows what
it has read. -/
theorem noted_holds {o : IngestOp} (r : IngestRes o) (hs : Catalogued s) (hg : g.Holds s)
    (hpermit : g.Permits o) (ho : o.changes = false) :
    (g.note ⟨o, (ingestHandler o r s).1⟩).Holds s := by
  cases g with
  | idle => trivial
  | asked eventId file => exact holds_asked r hs hpermit
  | starting x =>
    cases o with
    | imports o => exact holds_fetching _ (.inr (.inl rfl))
    | _ => cases hpermit
  | chosen x item =>
    cases o with
    | imports o => exact holds_fetching _ (.inl ⟨item, rfl⟩)
    | _ => cases hpermit
  | admitted x item job =>
    cases o with
    | imports o => exact holds_fetching _ (.inr (.inr (.inl ⟨item, job, rfl⟩)))
    | _ => cases hpermit
  | fetched x item job =>
    cases o with
    | imports o => exact holds_fetching _ (.inr (.inr (.inr ⟨item, job, rfl⟩)))
    | _ => cases hpermit
  | hashed x item job checksum => exact holds_hashed r hpermit
  | looking l => exact holds_looked r hg hpermit
  | weighing l org used => exact holds_weighed r hg hpermit
  | unseen l used =>
    cases o with
    | imports o =>
      cases o with
      | randomUUID => exact hg
      | _ => cases hpermit
    | _ => cases hpermit
  | drawn l used id => exact holds_drawn r hg hpermit
  | placed l used id key =>
    cases o with
    | imports o =>
      cases o with
      | createAsset asset => cases ho
      | _ => cases hpermit
    | createAsset row => cases ho
    | _ => cases hpermit
  | stored l id key => exact holds_stored r hpermit
  | lost l id key =>
    cases o with
    | imports o =>
      cases o with
      | deleteKeys keys => trivial
      | _ => cases hpermit
    | _ => cases hpermit
  | cleared l => exact holds_cleared r hpermit
  | linking l winner =>
    cases o with
    | imports o =>
      cases o with
      | removeFile path => trivial
      | markItem k dto => trivial
      | _ => cases hpermit
    | _ => cases hpermit
  | marked l x status assetId =>
    cases o with
    | imports o => cases o <;> trivial
    | _ => cases hpermit
  | failed x =>
    cases o with
    | imports o => cases o <;> trivial
    | _ => cases hpermit
  | planning orgId org => exact holds_planned r hg hpermit
  | planned orgId count =>
    cases o with
    | getBySlug slug => exact hg
    | createEvent k dto => cases ho
    | imports o => cases o <;> cases hpermit
    | _ => cases hpermit

theorem Metered.kept (h : Metered orgId S s) (hsame : SameCatalogue s s') : Metered orgId S s' :=
  ⟨hsame.catalogued h.catalogued, hsame.within h.within,
    fun k hk => (h.holds k hk).mono hsame.extends⟩

/-- A statement on events or assets. -/
theorem metered_change {o : IngestOp} (r : IngestRes o) (h : Metered orgId (g ::ₘ N) s)
    (hpermit : g.Permits o) (htime : g.InTime s orgId ⟨o, (ingestHandler o r s).1⟩)
    (ho : o.changes = true) :
    Metered orgId (g.note ⟨o, (ingestHandler o r s).1⟩ ::ₘ N) (ingestHandler o r s).2 := by
  cases o with
  | createAsset row =>
    cases g with
    | placed l used id key => exact h.inserted hpermit.2 r htime
    | _ => cases hpermit
  | imports o =>
    cases o with
    | createAsset asset =>
      cases g with
      | placed l used id key => exact h.inserted hpermit.2 r htime
      | _ => cases hpermit
    | _ => cases ho
  | createEvent k dto =>
    cases g with
    | planned orgId' count =>
      obtain rfl : k = orgId' := hpermit
      exact h.planned r htime
    | _ => cases hpermit
  | hardDelete k eventId =>
    cases g with
    | idle =>
      exact h.removed (extends_hardDelete k eventId) (catalogued_hardDelete h.catalogued k eventId)
        (bytes_hardDelete k eventId) (count_hardDelete k eventId) trivial
    | _ => cases hpermit
  | softDeleteMany eventId ids =>
    cases g with
    | idle =>
      exact h.removed ⟨rfl, le_rfl, fun _ hevent => .inl hevent⟩
        (catalogued_softDeleteMany h.catalogued eventId ids) (bytes_softDeleteMany eventId ids)
        le_rfl trivial
    | _ => cases hpermit
  | _ => cases ho

theorem metered_perform {o : IngestOp} (r : IngestRes o) (h : Metered orgId (g ::ₘ N) s)
    (hpermit : g.Permits o) (htime : g.InTime s orgId ⟨o, (ingestHandler o r s).1⟩) :
    Metered orgId (g.note ⟨o, (ingestHandler o r s).1⟩ ::ₘ N) (ingestHandler o r s).2 := by
  by_cases ho : o.changes = true
  · exact metered_change r h hpermit htime ho
  · have hquiet : o.changes = false := Bool.eq_false_of_not_eq_true ho
    exact h.quiet hquiet r
      (noted_holds r h.catalogued (h.holds g (Multiset.mem_cons_self g N)) hpermit hquiet)

theorem accept_sameCatalogue {fuel : ℕ} {c : IngestCall}
    (h : (ingestServer fuel).accept c s = some s') : SameCatalogue s s' := by
  cases c with
  | imports c =>
    obtain ⟨w, -, rfl⟩ := Option.map_eq_some_iff.mp h
    exact ⟨rfl, rfl, rfl, le_rfl⟩
  | uploadAsset eventId file =>
    change (if freshPath s file.stagingPath then _ else _) = _ at h
    split at h
    · cases h
      exact ⟨rfl, rfl, rfl, le_rfl⟩
    · cases h
  | cleanup job =>
    change (if job ∈ s.cleanups then _ else _) = _ at h
    split at h
    · cases h
      exact sameCatalogue_self
    · cases h
  | _ =>
    cases h
    exact sameCatalogue_self

theorem release_sameCatalogue {fuel : ℕ} {c : IngestCall} {reply : IngestReply} {again : Bool}
    (h : (ingestServer fuel).release c reply again s = some s') : SameCatalogue s s' := by
  have hanswered : ∀ s' : IngestStore, some { s with answered := s.answered ++ [(c, reply)] } =
      some s' → SameCatalogue s s' := by
    intro s' h
    cases h
    exact ⟨rfl, rfl, rfl, le_rfl⟩
  cases c with
  | imports c =>
    cases reply with
    | imports verdict =>
      obtain ⟨w, -, rfl⟩ := Option.map_eq_some_iff.mp h
      exact ⟨rfl, rfl, rfl, le_rfl⟩
    | _ => exact hanswered s' h
  | _ => exact hanswered s' h

theorem first_holds (c : IngestCall) : c.first.Holds s := by
  cases c with
  | imports c => cases c <;> trivial
  | createEvent k dto =>
    intro o ho
    cases ho
  | _ => trivial

theorem metered_preserves (fuel : ℕ) (orgId : String) :
    Preserves (ingestServer fuel) (InTime orgId) stages IngestCall.first IngestCall.Post
      (Metered orgId) where
  accept c N s s' h haccept := by
    refine Metered.kept ⟨h.catalogued, h.within, fun k hk => ?_⟩ (accept_sameCatalogue haccept)
    rcases Multiset.mem_cons.mp hk with rfl | hk
    · exact first_holds c
    · exact h.holds k hk
  perform p t N o r _ h hpermit htime := ⟨trivial, metered_perform r h hpermit htime⟩
  release c value g again N s s' h _ hrelease := by
    refine Metered.kept ⟨h.catalogued, h.within, fun k hk => ?_⟩ (release_sameCatalogue hrelease)
    exact h.holds k (Multiset.mem_cons_of_mem hk)

end Steps

/-- As long as every asset and every event still finds what its check found,
and imported content finds room, an organisation keeps within its limits. -/
theorem within_limits_inTime (fuel : ℕ) (orgId : String) {s : IngestStore} {p : IngestPool}
    (catalogued : Catalogued s) (start : WithinLimits s orgId)
    (h : (ingestServer fuel).Reaches (InTime orgId) ⟨[], s⟩ p) : WithinLimits p.state orgId :=
  (h.invariant (call_follows fuel) (metered_preserves fuel orgId) rfl
    ⟨catalogued, start, fun _ hg => absurd hg (Multiset.notMem_zero _)⟩).2.within

/-- An organisation with ten bytes and an event, and a file to import. -/
def partyStore : IngestStore :=
  { jobs := [{ id := 0, eventId := "event", orgId := "org", cloudAccountId := "account",
               provider := .gDrive, folderRemoteId := "folder", recursive := false,
               status := .importing, totalFiles := 1 }]
    items := [{ id := 0, importJobId := 0, eventId := "event", provider := .gDrive,
                remoteId := "file", remoteName := "photo.jpg", remoteSize := none,
                remoteChecksum := none }]
    nextJobId := 1
    nextItemId := 1
    queue := [.importFile 0]
    orgs := [{ id := "org", plan := .starter, storageLimitBytes := some 10 }]
    events := [{ id := "event", orgId := "org", name := "Party", slug := "party" }]
    remote := [("file", "checksum")] }

theorem party_catalogued : Catalogued partyStore where
  ids := by decide
  issued event hevent n hn := by
    have hid : event.id = "event" := by
      rw [List.mem_singleton.mp hevent]
    have hfirst : 'e' ∈ (toString n).toList := by
      rw [← hn, hid]
      decide
    exact absurd (Import.isDigit_of_mem_toString hfirst) (by decide)
  homed := fun _ ha => absurd ha List.not_mem_nil

theorem party_within : WithinLimits partyStore "org" := by
  intro org horg
  cases horg
  decide

/-- Twenty bytes, imported without a check. -/
def unmetered : List IngestMove := .start (.imports (.importFile 0)) :: performs (willing 20) 0 13

theorem not_within_limits : ¬ ∀ fuel orgId s p, Catalogued s → WithinLimits s orgId →
    (ingestServer fuel).Reaches (fun _ _ _ => True) ⟨[], s⟩ p → WithinLimits p.state orgId := by
  intro h
  let p := ((ingestServer 0).play (fun _ _ _ => True) unmetered ⟨[], partyStore⟩).get
    (by decide)
  have hplay : (ingestServer 0).play (fun _ _ _ => True) unmetered ⟨[], partyStore⟩ = some p :=
    (Option.some_get _).symm
  have hwithin := h 0 "org" partyStore p party_catalogued party_within
    (Server.Reaches.start.play unmetered hplay)
  obtain ⟨hbytes, -⟩ := hwithin { id := "org", plan := .starter, storageLimitBytes := some 10 }
    (by decide)
  exact absurd hbytes (by decide)

def smallPhoto : StagedUpload :=
  { stagingPath := "upload", originalFilename := "photo.jpg", mimeType := "image/jpeg", size := 4,
    checksum := "sum" }

/-- An upload and an import that fit, one after the other. -/
def metered : List IngestMove :=
  wholeCall (willing 0) (.uploadAsset "event" smallPhoto) 0 10 ++
    .start (.imports (.importFile 0)) :: performs (willing 6) 0 13

theorem within_limits_inTime_filled :
    ∃ p, (ingestServer 0).play (InTime "org") metered ⟨[], partyStore⟩ = some p ∧
      p.state.getOrgStorageBytes "org" = 10 ∧ WithinLimits p.state "org" := by
  have hrun : ((ingestServer 0).play (InTime "org") metered ⟨[], partyStore⟩).map
      (fun p => p.state.getOrgStorageBytes "org") = some 10 := by decide
  obtain ⟨p, hplay, hbytes⟩ := Option.map_eq_some_iff.mp hrun
  exact ⟨p, hplay, hbytes, within_limits_inTime 0 "org" party_catalogued party_within
    (Server.Reaches.start.play metered hplay)⟩

end EventLens.Ingest
