import EventLens.PhotoWork

/-!
What is true of live photos while work is done on them: whose ids are given
out, which assets are dead and which events leave, what objects are kept, and
what a status stands for. All of it stays true at any later moment, when rows
come with their objects, and only objects go that nobody keeps.
-/

namespace EventLens.Photos

open Programs Media

section Facts

variable (N : Multiset Work) (s : MediaStore)

/-- The id is given out, and its row is not still to come. -/
def Settled (a : ℕ) : Prop := a < s.nextUuid ∧ ∀ g ∈ N, g.drawn ≠ some a

/-- The asset is deleted or gone, for good. -/
def Dead (a : ℕ) : Prop := Settled N s a ∧ ∀ row ∈ s.assets, row.id = a → row.deletedAt ≠ none

/-- The event is gone, or a call is about to drop it. -/
def Leaving (eventId : ℕ) : Prop :=
  s.hasEvent eventId = false ∨ ∃ g ∈ N, ∃ pfx ∈ g.doomed, pfx.eventId = eventId

/-- The object is of no asset that stays. -/
def Expendable (key : StorageKey) : Prop :=
  Leaving N s key.eventId ∨ ∀ a, key.assetId? = some a → Dead N s a

def Kept (key : StorageKey) : Prop := key ∈ s.bucket ∨ Expendable N s key

/-- The job waits, was given up, or is in progress. -/
def Tasked (item : JobItem) : Prop :=
  (∃ n, (n, item) ∈ s.jobs ++ s.failed) ∨ ∃ g ∈ N, ∃ n, g.call = .job n item

/-- The job is in progress and has not come to an end. -/
def Work.Runs (g : Work) (item : JobItem) : Prop :=
  (∃ n, g.call = .job n item) ∧ g.idle = false ∧ g.ended = none

/-- The job waits or is in progress, or the call that owes it is. -/
def Awaited (item : JobItem) : Prop :=
  (∃ n, (n, item) ∈ s.jobs) ∨ ∃ g ∈ N, item ∈ g.owes ∨ g.Runs item

/-- The job is awaited, was given up, or has just failed. -/
def Retained (item : JobItem) : Prop :=
  Awaited N s item ∨ (∃ n, (n, item) ∈ s.failed) ∨
    ∃ g ∈ N, (∃ n, g.call = .job n item) ∧ g.ended = some .failed

/-- What the status of an asset says. -/
def Truthful (row : AssetRow) : Prop :=
  match row.status with
  | .staged => True
  | .stored => Awaited N s (.assetProcess row.id)
  | .failed => Retained N s (.assetProcess row.id)
  | .processed => derivative row.toAssetIdentity .preview ∈ s.files ∧
      derivative row.toAssetIdentity .thumbnail ∈ s.files ∧
      (row.type = .video → derivative row.toAssetIdentity .encodedVideo ∈ s.files ∨
        Retained N s (.videoTranscode row.id))

/-- What a call holds, has filed and collects, in this state. -/
structure Work.Sound (g : Work) : Prop where
  drawn : ∀ a, g.drawn = some a → a < s.nextUuid
  asset : ∀ held, g.asset = some held → assetOf g.call = some held.1.id ∧ Settled N s held.1.id ∧
    ∀ row ∈ s.assets, row.id = held.1.id → row.toAssetIdentity = held.1 ∧ row.type = held.2
  held : ∀ key ∈ g.held, Kept N s key ∧ ∀ a, key.assetId? = some a → Settled N s a ∨
    g.drawn = some a
  filed : ∀ type ∈ g.filed, ∃ held, g.asset = some held ∧ ∀ row ∈ s.assets, row.id = held.1.id →
    derivative held.1 type ∈ s.files
  paged : ∀ key ∈ g.paged, Expendable N s key
  listed : ∀ a ∈ g.listed, Dead N s a
  collected : ∀ key ∈ g.collected, Expendable N s key
  seen : ∀ pfx ∈ g.seen, ∀ event ∈ s.events, event.id = pfx.eventId → event.orgId = pfx.orgId
  doomed : ∀ pfx ∈ g.doomed, pfx ∈ g.seen

structure Whole : Prop where
  ids : (s.assets.map (fun row => row.id)).Nodup
  eventIds : (s.events.map EventRow.id).Nodup
  rows : ∀ row ∈ s.assets, Settled N s row.id ∧ Original row ∧ s.hasEvent row.eventId = true
  originals : ∀ row ∈ s.assets, Kept N s row.storageKey
  files : ∀ f ∈ s.files,
    (∃ row ∈ s.assets, row.id = f.assetId ∧ f = derivative row.toAssetIdentity f.type) ∧
    Kept N s f.storageKey
  cleanups : ∀ keys, Tasked N s (.cleanupKeys keys) → ∀ key ∈ keys, Expendable N s key
  prefixes : ∀ pfx, Tasked N s (.cleanupPrefix pfx) → Leaving N s pfx.eventId
  truthful : ∀ row ∈ s.assets, row.deletedAt = none → Truthful N s row
  drawn : (N.filterMap Work.drawn).Nodup
  calls : ∀ g ∈ N, g.Sound N s

end Facts

/-! What stays true. -/

/-- From one moment to a later one, when a call that has drawn `own` may have
deleted the object it put, and `fresh` are the rows that it brought. -/
structure Later (own : Option ℕ) (fresh : List AssetRow) (N : Multiset Work) (s : MediaStore)
    (N' : Multiset Work) (s' : MediaStore) : Prop where
  next : s.nextUuid ≤ s'.nextUuid
  drawn : ∀ g' ∈ N', ∀ a, g'.drawn = some a → s.nextUuid ≤ a ∨ ∃ g ∈ N, g.drawn = some a
  owned : ∀ a, own = some a → ∃ g ∈ N, g.drawn = some a
  brings : ∀ row ∈ fresh, own = some row.id
  rows : ∀ row' ∈ s'.assets, row' ∈ fresh ∨
    ∃ row ∈ s.assets, row.toAssetIdentity = row'.toAssetIdentity ∧
    row.type = row'.type ∧ (row.deletedAt ≠ none → row'.deletedAt ≠ none)
  events : ∀ event ∈ s'.events, event ∈ s.events
  doomed : ∀ g ∈ N, ∀ pfx ∈ g.doomed, Leaving N' s' pfx.eventId
  files : ∀ f ∈ s.files, (∃ row ∈ s'.assets, row.id = f.assetId) → f ∈ s'.files
  bucket : ∀ key ∈ s.bucket, key ∈ s'.bucket ∨ Expendable N' s' key ∨ key.assetId? = own

section Later

variable {own : Option ℕ} {fresh : List AssetRow} {N N' : Multiset Work} {s s' : MediaStore} {a : ℕ}
  {key : StorageKey} {g : Work}

theorem Settled.later (h : Settled N s a) (hl : Later own fresh N s N' s') : Settled N' s' a := by
  refine ⟨h.1.trans_le hl.next, fun g' hg' hdrawn => ?_⟩
  rcases hl.drawn g' hg' a hdrawn with hnew | ⟨g, hg, hold⟩
  · exact absurd h.1 (Nat.not_lt.mpr hnew)
  · exact h.2 g hg hold

theorem Settled.not_own (h : Settled N s a) (hl : Later own fresh N s N' s') : own ≠ some a := by
  intro hown
  obtain ⟨g, hg, hdrawn⟩ := hl.owned a hown
  exact h.2 g hg hdrawn

/-- A row of a settled asset was there before. -/
theorem Settled.row (h : Settled N s a) (hl : Later own fresh N s N' s') {row' : AssetRow}
    (hrow' : row' ∈ s'.assets) (hid : row'.id = a) :
    ∃ row ∈ s.assets, row.id = a ∧ row.toAssetIdentity = row'.toAssetIdentity ∧
    row.type = row'.type ∧
      (row.deletedAt ≠ none → row'.deletedAt ≠ none) := by
  rcases hl.rows row' hrow' with hfresh | ⟨row, hrow, hsame, htype, hdead⟩
  · exact absurd (hid ▸ hl.brings row' hfresh) (h.not_own hl)
  · exact ⟨row, hrow, (congrArg AssetIdentity.id hsame).trans hid, hsame, htype, hdead⟩

theorem Dead.later (h : Dead N s a) (hl : Later own fresh N s N' s') : Dead N' s' a := by
  refine ⟨h.1.later hl, fun row' hrow' hid => ?_⟩
  obtain ⟨row, hrow, hsame, -, -, hdead⟩ := h.1.row hl hrow' hid
  exact hdead (h.2 row hrow hsame)

theorem hasEvent_eq_false {eventId : ℕ} :
    s.hasEvent eventId = false ↔ ∀ event ∈ s.events, event.id ≠ eventId := by
  simp [MediaStore.hasEvent]

theorem Leaving.later {eventId : ℕ} (h : Leaving N s eventId) (hl : Later own fresh N s N' s') :
    Leaving N' s' eventId := by
  rcases h with hgone | ⟨g, hg, pfx, hpfx, rfl⟩
  · refine .inl (hasEvent_eq_false.mpr fun event hevent => ?_)
    exact hasEvent_eq_false.mp hgone event (hl.events event hevent)
  · exact hl.doomed g hg pfx hpfx

theorem Expendable.later (h : Expendable N s key) (hl : Later own fresh N s N' s') :
    Expendable N' s' key :=
  h.imp (fun hleaving => hleaving.later hl) fun hdead a ha => (hdead a ha).later hl

theorem Kept.later (h : Kept N s key) (hl : Later own fresh N s N' s')
    (hown : ∀ a, key.assetId? = some a → own ≠ some a) : Kept N' s' key := by
  rcases h with hkey | hexpendable
  · rcases hl.bucket key hkey with hstill | hexpendable | hdeleted
    · exact .inl hstill
    · exact .inr hexpendable
    · refine .inr (.inr fun a ha => ?_)
      exact absurd (hdeleted.symm.trans ha) (hown a ha)
  · exact .inr (hexpendable.later hl)

/-- What a call knows stays true, if it keeps what it holds. -/
theorem Work.Sound.knows (h : g.Sound N s) (hl : Later own fresh N s N' s')
    (hheld : ∀ key ∈ g.held, Kept N' s' key) : g.Sound N' s' where
  drawn a ha := (h.drawn a ha).trans_le hl.next
  asset held hheld := by
    obtain ⟨hcall, hsettled, hrows⟩ := h.asset held hheld
    refine ⟨hcall, hsettled.later hl, fun row' hrow' hid => ?_⟩
    obtain ⟨row, hrow, hold, hsame, htype, -⟩ := hsettled.row hl hrow' hid
    obtain ⟨hident, holdType⟩ := hrows row hrow hold
    exact ⟨hsame.symm.trans hident, htype.symm.trans holdType⟩
  held key hkey :=
    ⟨hheld key hkey, fun a ha => ((h.held key hkey).2 a ha).imp_left fun hs => hs.later hl⟩
  filed type htype := by
    obtain ⟨held, hheld, hfiled⟩ := h.filed type htype
    refine ⟨held, hheld, fun row' hrow' hid => ?_⟩
    obtain ⟨row, hrow, hold, -, -, -⟩ := (h.asset held hheld).2.1.row hl hrow' hid
    exact hl.files _ (hfiled row hrow hold) ⟨row', hrow', hid⟩
  paged key hkey := (h.paged key hkey).later hl
  listed a ha := (h.listed a ha).later hl
  collected key hkey := (h.collected key hkey).later hl
  seen pfx hpfx event hevent := h.seen pfx hpfx event (hl.events event hevent)
  doomed := h.doomed

/-- What a call that is not the one to advance knows and holds. -/
theorem Work.Sound.later (h : g.Sound N s) (hl : Later own fresh N s N' s')
    (hother : ∀ a, own = some a → g.drawn ≠ some a) : g.Sound N' s' := by
  refine h.knows hl fun key hkey => ?_
  obtain ⟨hkept, howner⟩ := h.held key hkey
  refine hkept.later hl fun a ha hown => ?_
  rcases howner a ha with hsettled | hdrawn
  · exact hsettled.not_own hl hown
  · exact hother a hown hdrawn

theorem original_assetId {row : AssetRow} (h : Original row) :
    row.storageKey.assetId? = some row.id := by
  obtain ⟨ext, hkey⟩ := h
  rw [hkey]
  rfl

theorem derivative_assetId (ident : AssetIdentity) (type : AssetFileType) :
    (derivative ident type).storageKey.assetId? = some ident.id := by
  cases type <;> rfl

theorem Whole.file_assetId (h : Whole N s) {f : FileRow} (hf : f ∈ s.files) :
    f.storageKey.assetId? = some f.assetId ∧ Settled N s f.assetId := by
  obtain ⟨⟨row, hrow, hid, hderived⟩, -⟩ := h.files f hf
  rw [← hid]
  refine ⟨?_, (h.rows row hrow).1⟩
  rw [hderived]
  exact derivative_assetId row.toAssetIdentity f.type

theorem Whole.unique (h : Whole N s) {x y : AssetRow} (hx : x ∈ s.assets) (hy : y ∈ s.assets)
    (hxy : x.id = y.id) : x = y := List.inj_on_of_nodup_map h.ids hx hy hxy

/-- What a later moment has to show for itself. -/
structure Shown (fresh : List AssetRow) (N : Multiset Work) (s : MediaStore) (N' : Multiset Work)
    (s' : MediaStore) : Prop where
  ids : (s'.assets.map (fun row => row.id)).Nodup
  eventIds : (s'.events.map EventRow.id).Nodup
  homes : ∀ row ∈ s'.assets, s'.hasEvent row.eventId = true
  brings : ∀ row ∈ fresh, Settled N' s' row.id ∧ Original row ∧ Kept N' s' row.storageKey
  files : ∀ f ∈ s'.files, (f ∈ s.files ∧ ∃ row ∈ s'.assets, row.id = f.assetId) ∨
    ((∃ row ∈ s'.assets, row.id = f.assetId ∧ f = derivative row.toAssetIdentity f.type) ∧
      Kept N' s' f.storageKey)
  tasks : ∀ item, Tasked N' s' item → Tasked N s item ∨
    (∀ keys, item = .cleanupKeys keys → ∀ key ∈ keys, Expendable N' s' key) ∧
      ∀ pfx, item = .cleanupPrefix pfx → Leaving N' s' pfx.eventId
  truthful : ∀ row ∈ s'.assets, row.deletedAt = none → Truthful N' s' row
  drawn : (N'.filterMap Work.drawn).Nodup

theorem Whole.later (h : Whole N s) (hl : Later own fresh N s N' s')
    (hshown : Shown fresh N s N' s')
    (hcalls : ∀ g' ∈ N', (g' ∈ N ∧ ∀ a, own = some a → g'.drawn ≠ some a) ∨
    g'.Sound N' s') : Whole N' s' where
  ids := hshown.ids
  eventIds := hshown.eventIds
  rows row' hrow' := by
    rcases hl.rows row' hrow' with hfresh | ⟨row, hrow, hsame, -, -⟩
    · obtain ⟨hsettled, horiginal, -⟩ := hshown.brings row' hfresh
      exact ⟨hsettled, horiginal, hshown.homes row' hrow'⟩
    · obtain ⟨hsettled, ⟨ext, hkey⟩, -⟩ := h.rows row hrow
      have hid : row.id = row'.id := congrArg AssetIdentity.id hsame
      have horiginal : Original row' := by
        refine ⟨ext, ?_⟩
        rw [← show row.storageKey = row'.storageKey from congrArg AssetIdentity.storageKey hsame,
          hkey, hid,
          show row.orgId = row'.orgId from congrArg AssetIdentity.orgId hsame,
          show row.eventId = row'.eventId from congrArg AssetIdentity.eventId hsame]
      exact ⟨hid ▸ hsettled.later hl, horiginal, hshown.homes row' hrow'⟩
  originals row' hrow' := by
    rcases hl.rows row' hrow' with hfresh | ⟨row, hrow, hsame, -, -⟩
    · exact (hshown.brings row' hfresh).2.2
    · obtain ⟨hsettled, horiginal, -⟩ := h.rows row hrow
      rw [← show row.storageKey = row'.storageKey from congrArg AssetIdentity.storageKey hsame]
      refine (h.originals row hrow).later hl fun a ha => ?_
      rw [original_assetId horiginal] at ha
      cases ha
      exact hsettled.not_own hl
  files f hf := by
    rcases hshown.files f hf with ⟨hold, row', hrow', hid⟩ | hnew
    · obtain ⟨hassetId, hsettled⟩ := h.file_assetId hold
      obtain ⟨⟨row₀, hrow₀, hid₀, hderived⟩, hkept⟩ := h.files f hold
      obtain ⟨row, hrow, holdId, hsame, -, -⟩ := hsettled.row hl hrow' hid
      have hrows : row = row₀ := h.unique hrow hrow₀ (holdId.trans hid₀.symm)
      refine ⟨⟨row', hrow', hid, ?_⟩, hkept.later hl fun a ha => ?_⟩
      · rw [← hsame, hrows]
        exact hderived
      · rw [hassetId] at ha
        cases ha
        exact hsettled.not_own hl
    · exact hnew
  cleanups keys htask key hkey := by
    rcases hshown.tasks _ htask with hold | ⟨hnew, -⟩
    · exact (h.cleanups keys hold key hkey).later hl
    · exact hnew keys rfl key hkey
  prefixes pfx htask := by
    rcases hshown.tasks _ htask with hold | ⟨-, hnew⟩
    · exact (h.prefixes pfx hold).later hl
    · exact hnew pfx rfl
  truthful := hshown.truthful
  drawn := hshown.drawn
  calls g' hg' := by
    rcases hcalls g' hg' with ⟨hold, hother⟩ | hnew
    · exact (h.calls g' hold).later hl hother
    · exact hnew

end Later

end EventLens.Photos
