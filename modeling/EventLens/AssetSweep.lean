import EventLens.AssetDeletion

/-!
What a deletion leaves. Whatever stands between an object of an asset and its
row is owed by a call in progress; an id is given out once; and what a cleanup
lists is of deleted assets for good. So no cleanup takes anything of a live
asset, and an asset that a reconciliation has dropped leaves nothing once its
cleanup is done, provided the jobs of the asset end within the grace period.
-/

namespace EventLens.Media

open Programs MediaStore

/-! What the calls in progress answer for. -/

section Accounts

variable (N : Multiset Doing) (s : MediaStore)

/-- The id is given out, and its row is not still to come. -/
def Spent (a : ℕ) : Prop := a < s.nextUuid ∧ ∀ g ∈ N, g.drawn ≠ some a

/-- The object is of an asset that is deleted, or gone, for good. -/
def Condemned (key : StorageKey) : Prop :=
  ∀ a ∈ key.assetId?, Spent N s a ∧ ∀ row ∈ s.assets, row.id = a → row.deletedAt ≠ none

/-- The cleanup under this number has yet to delete the object. -/
def Due (n : ℕ) (key : StorageKey) : Prop :=
  (∃ keys, (n, JobItem.cleanupKeys keys) ∈ s.jobs ++ s.failed ∧ key ∈ keys) ∨
    ∃ g ∈ N, (∃ keys, g.call = .job n (.cleanupKeys keys)) ∧ key ∈ g.left

/-- An asset dropped by a reconciliation, with the number of its cleanup. -/
structure Swept (an : ℕ × ℕ) : Prop where
  spent : Spent N s an.1
  rows : ∀ row ∈ s.assets, row.id ≠ an.1
  held : ∀ g ∈ N, ∀ ident ∈ g.asset, ident.id ≠ an.1
  objects : ∀ key ∈ s.bucket, key.assetId? = some an.1 → Due N s an.2 key

/-- The asset that a call holds or brings, and what it owes or deletes. -/
structure Doing.Holding (g : Doing) : Prop where
  held : ∀ ident ∈ g.asset, g.call.assetId? = some ident.id ∧ Spent N s ident.id ∧
    ∀ row ∈ s.assets, row.id = ident.id → row.toAssetIdentity = ident
  draws : ∀ a ∈ g.drawn, a < s.nextUuid ∧ ∀ key ∈ s.bucket, key.assetId? = some a → key ∈ g.owed
  owes : ∀ key ∈ g.owed, ∃ a, key.assetId? = some a ∧
    ((∃ ident ∈ g.asset, ident.id = a) ∨ g.drawn = some a)
  job : ∀ n keys, g.call = .job n (.cleanupKeys keys) → ∀ key ∈ keys, Condemned N s key

/-- The deleted assets that a call collects the objects of. -/
structure Doing.Sweeping (g : Doing) : Prop where
  cutoff : ∀ c ∈ g.cutoff, c ≤ s.clock - gracePeriodMs
  listed : ∀ ident ∈ g.listed, Spent N s ident.id ∧ ident.storageKey.assetId? = some ident.id ∧
    ∀ row ∈ s.assets, row.id = ident.id → row.toAssetIdentity = ident ∧
      ∃ d, row.deletedAt = some d ∧ (g.cutoff ≠ none → d < s.clock - gracePeriodMs)
  collected : ∀ key ∈ g.collected, Condemned N s key
  read : g.cutoff ≠ none → ∀ ident ∈ g.listed, ident.id ∈ g.read →
    ∀ row ∈ s.assets, row.id = ident.id →
    ∀ key ∈ s.bucket, key.assetId? = some ident.id → key ∈ g.collected ∧
      ∀ n ∈ g.queued, Due N s n key

structure Accounted : Prop where
  ids : (s.assets.map (fun row => row.id)).Nodup
  rows : ∀ row ∈ s.assets, Spent N s row.id ∧ row.storageKey.assetId? = some row.id
  files : ∀ f ∈ s.files, ∃ row ∈ s.assets, row.id = f.assetId ∧
    f = derivative row.toAssetIdentity f.type
  objects : ∀ key ∈ s.bucket, ∀ a ∈ key.assetId?, a < s.nextUuid ∧ ∀ row ∈ s.assets, row.id = a →
    key = row.storageKey ∨ (∃ f ∈ s.files, f.storageKey = key) ∨ ∃ g ∈ N, key ∈ g.owed
  cleanups :
    ∀ n keys, (n, JobItem.cleanupKeys keys) ∈ s.jobs ++ s.failed → ∀ key ∈ keys, Condemned N s key
  swept : ∀ an ∈ s.reconciled, Swept N s an
  drawn : (N.filterMap Doing.drawn).Nodup
  holding : ∀ g ∈ N, g.Holding N s
  sweeping : ∀ g ∈ N, g.Sweeping N s

end Accounts

theorem accounted_of_tidy {s : MediaStore} (h : s.Tidy) : Accounted 0 s where
  ids := h.ids
  rows row hrow := ⟨⟨h.below row hrow, by simp⟩, h.originals row hrow⟩
  files := h.files
  objects key hkey a ha := by
    obtain ⟨hbelow, hrows⟩ := h.objects key hkey a ha
    exact ⟨hbelow, fun row hrow hid => (hrows row hrow hid).imp_right .inl⟩
  cleanups n keys hjob key hkey a ha := by
    obtain ⟨hbelow, hrows⟩ := h.cleanups n keys hjob key hkey a ha
    exact ⟨⟨hbelow, by simp⟩, hrows⟩
  swept an han := by
    rw [h.reconciled] at han
    cases han
  drawn := by simp
  holding := by simp
  sweeping := by simp

theorem assetId?_derivativeKey (ident : AssetIdentity) (type : AssetFileType) :
    (derivativeKey ident type).assetId? = some ident.id := by
  cases type <;> rfl

section Facts

variable {N : Multiset Doing} {s : MediaStore} {key : StorageKey}

theorem Accounted.unique (h : Accounted N s) {a b : AssetRow} (ha : a ∈ s.assets)
    (hb : b ∈ s.assets)
    (hab : a.id = b.id) : a = b := List.inj_on_of_nodup_map h.ids ha hb hab

theorem Accounted.file (h : Accounted N s) {f : FileRow} (hf : f ∈ s.files) :
    f.storageKey.assetId? = some f.assetId := by
  obtain ⟨row, -, hid, hderived⟩ := h.files f hf
  have hkey : f.storageKey = derivativeKey row.toAssetIdentity f.type :=
    congrArg FileRow.storageKey hderived
  rw [hkey, assetId?_derivativeKey, hid]

/-- Nothing that is condemned is referenced. -/
theorem Accounted.spares (h : Accounted N s) (hkey : Condemned N s key) : ¬ s.Referenced key := by
  rintro ⟨row, hrow, hlive, hnamed⟩
  have hof : key.assetId? = some row.id := by
    rcases hnamed with rfl | ⟨f, hf, hid, rfl⟩
    · exact (h.rows row hrow).2
    · rw [h.file hf, hid]
  exact (hkey row.id hof).2 row hrow rfl hlive

/-- The rows that a call owes are of its own asset. -/
theorem Doing.Holding.of_owed {g : Doing} {a : ℕ} (h : g.Holding N s) (hkey : key ∈ g.owed)
    (ha : key.assetId? = some a) : (∃ ident ∈ g.asset, ident.id = a) ∨ g.drawn = some a := by
  obtain ⟨b, hb, howns⟩ := h.owes key hkey
  rw [ha] at hb
  cases hb
  exact howns

end Facts

/-! What stays true of an asset when no row, file or object is added. -/

/-- Rows, files and objects may go, and assets may be deleted. -/
structure Loses (s s' : MediaStore) : Prop where
  ids : (s.assets.map (fun row => row.id)).Nodup → (s'.assets.map (fun row => row.id)).Nodup
  assets : ∀ row' ∈ s'.assets, ∃ row ∈ s.assets, row'.toAssetIdentity = row.toAssetIdentity ∧
    (row.deletedAt ≠ none → row'.deletedAt = row.deletedAt)
  files : ∀ f ∈ s'.files, f ∈ s.files ∧
    ((∃ row ∈ s.assets, row.id = f.assetId) → ∃ row ∈ s'.assets, row.id = f.assetId)
  kept : ∀ f ∈ s.files, (∃ row ∈ s'.assets, row.id = f.assetId) → f ∈ s'.files
  bucket : ∀ key ∈ s'.bucket, key ∈ s.bucket
  nextUuid : s.nextUuid ≤ s'.nextUuid
  clock : s.clock ≤ s'.clock

section Loses

variable {s s' : MediaStore}

theorem loses_same (hassets : s'.assets = s.assets) (hfiles : s'.files = s.files)
    (hbucket : ∀ key ∈ s'.bucket, key ∈ s.bucket) (hnext : s.nextUuid ≤ s'.nextUuid)
    (hclock : s.clock ≤ s'.clock) : Loses s s' where
  ids h := by rw [hassets]; exact h
  assets row hrow := ⟨row, hassets ▸ hrow, rfl, fun _ => rfl⟩
  files f hf := ⟨hfiles ▸ hf, fun hrow => hassets.symm ▸ hrow⟩
  kept f hf _ := hfiles.symm ▸ hf
  bucket := hbucket
  nextUuid := hnext
  clock := hclock

/-- A change of columns that are not the identity, and not the deletion of a
deleted asset. -/
theorem loses_updateAssets {p : AssetRow → Bool} {f : AssetRow → AssetRow}
    (hsame : ∀ row, (f row).toAssetIdentity = row.toAssetIdentity)
    (hdeleted : ∀ row, p row = true → row.deletedAt ≠ none → (f row).deletedAt = row.deletedAt) :
    Loses s (s.updateAssets p f) := by
  have hids :
    ∀ row : AssetRow, (if p row then f row else row).toAssetIdentity = row.toAssetIdentity := by
    intro row
    split
    · exact hsame row
    · rfl
  have hback : ∀ row ∈ s.assets, (if p row then f row else row) ∈ (s.updateAssets p f).assets :=
    fun row hrow => List.mem_map_of_mem hrow
  refine ⟨fun h => ?_, fun row' hrow' => ?_, fun file hfile => ⟨hfile, ?_⟩,
    fun file hfile _ => hfile,
    fun _ h => h, le_rfl, le_rfl⟩
  · have hmap :
      (s.updateAssets p f).assets.map (fun row => row.id) = s.assets.map (fun row => row.id) := by
      rw [updateAssets, List.map_map]
      exact List.map_congr_left fun row _ => congrArg AssetIdentity.id (hids row)
    rw [hmap]
    exact h
  · obtain ⟨row, hrow, rfl⟩ := List.mem_map.mp hrow'
    refine ⟨row, hrow, hids row, fun hgone => ?_⟩
    split
    · rename_i hp
      exact hdeleted row hp hgone
    · rfl
  · rintro ⟨row, hrow, hid⟩
    exact ⟨_, hback row hrow, (congrArg AssetIdentity.id (hids row)).trans hid⟩

theorem loses_setStatus (assetId : ℕ) (status : AssetStatus) :
    Loses s (s.setStatus assetId status) :=
  loses_updateAssets (fun _ => rfl) fun _ _ _ => rfl

theorem loses_softDeleteMany (eventId : ℕ) (ids : List ℕ) :
    Loses s (s.softDeleteMany eventId ids).2 := by
  refine loses_updateAssets (fun _ => rfl) fun row hrow hgone => ?_
  exact absurd (of_decide_eq_true hrow).2.2 hgone

/-- Assets go with the rows that reference them. -/
theorem loses_keepAssets {keep : AssetRow → Bool} (hassets : s'.assets = s.assets.filter keep)
    (hfiles : s'.files = (s.keepAssets keep).files) (hbucket : s'.bucket = s.bucket)
    (hnext : s'.nextUuid = s.nextUuid) (hclock : s'.clock = s.clock) : Loses s s' := by
  have hfile : ∀ f, f ∈ s'.files ↔ f ∈ s.files ∧ ∃ row ∈ s'.assets, row.id = f.assetId := by
    intro f
    rw [hfiles, keepAssets, List.mem_filter, hassets]
    simp only [List.any_eq_true, decide_eq_true_eq]
  refine ⟨fun h => ?_, fun row hrow => ⟨row, ?_, rfl, fun _ => rfl⟩, fun f hf => ?_,
    fun f hf hrow => (hfile f).mpr ⟨hf, hrow⟩, fun key hkey => hbucket ▸ hkey, hnext.ge, hclock.ge⟩
  · rw [hassets]
    exact h.sublist (List.filter_sublist.map _)
  · rw [hassets] at hrow
    exact List.mem_of_mem_filter hrow
  · obtain ⟨hf, hrow⟩ := (hfile f).mp hf
    exact ⟨hf, fun _ => hrow⟩

theorem loses_dropEvents (ids : List ℕ) : Loses s (s.dropEvents ids) :=
  loses_keepAssets rfl rfl rfl rfl rfl

theorem loses_hardDelete (orgId eventId : ℕ) : Loses s (s.hardDelete orgId eventId) := by
  rw [hardDelete]
  split
  · exact loses_dropEvents _
  · exact loses_same rfl rfl (fun _ h => h) le_rfl le_rfl

theorem loses_deleteAssets (ids : List ℕ) (job : ℕ) : Loses s (s.deleteAssets ids job) :=
  loses_keepAssets rfl rfl rfl rfl rfl

end Loses

section Moves

variable {N N' : Multiset Doing} {s s' : MediaStore} {g : Doing}

theorem Condemned.moves {key : StorageKey} (h : Condemned N s key) (hs : Loses s s')
    (hspent : ∀ a, Spent N s a → Spent N' s' a) : Condemned N' s' key := by
  intro a ha
  obtain ⟨hold, hrows⟩ := h a ha
  refine ⟨hspent a hold, fun row' hrow' hid => ?_⟩
  obtain ⟨row, hrow, hsame, hdeleted⟩ := hs.assets row' hrow'
  have hgone := hrows row hrow ((congrArg AssetIdentity.id hsame).symm.trans hid)
  rw [hdeleted hgone]
  exact hgone

theorem Doing.Holding.moves (h : g.Holding N s) (hs : Loses s s')
    (hspent : ∀ a, Spent N s a → Spent N' s' a) : g.Holding N' s' where
  held ident hident := by
    obtain ⟨hcall, hold, hrows⟩ := h.held ident hident
    refine ⟨hcall, hspent _ hold, fun row' hrow' hid => ?_⟩
    obtain ⟨row, hrow, hsame, -⟩ := hs.assets row' hrow'
    rw [hsame]
    exact hrows row hrow ((congrArg AssetIdentity.id hsame).symm.trans hid)
  draws a ha := by
    obtain ⟨hbelow, hkeys⟩ := h.draws a ha
    exact ⟨hbelow.trans_le hs.nextUuid, fun key hkey => hkeys key (hs.bucket key hkey)⟩
  owes := h.owes
  job n keys hcall key hkey := (h.job n keys hcall key hkey).moves hs hspent

theorem Doing.Sweeping.moves (h : g.Sweeping N s) (hs : Loses s s')
    (hspent : ∀ a, Spent N s a → Spent N' s' a)
    (hdue : ∀ n, ∀ key ∈ s'.bucket, Due N s n key → Due N' s' n key) : g.Sweeping N' s' where
  cutoff c hc := (h.cutoff c hc).trans (Nat.sub_le_sub_right hs.clock _)
  listed ident hident := by
    obtain ⟨hold, hkey, hrows⟩ := h.listed ident hident
    refine ⟨hspent _ hold, hkey, fun row' hrow' hid => ?_⟩
    obtain ⟨row, hrow, hsame, hdeleted⟩ := hs.assets row' hrow'
    obtain ⟨hident, d, hd, hpast⟩ :=
      hrows row hrow ((congrArg AssetIdentity.id hsame).symm.trans hid)
    have hgone : row.deletedAt ≠ none := by
      rw [hd]
      exact Option.some_ne_none d
    refine ⟨hsame.trans hident, d, (hdeleted hgone).trans hd, fun hcutoff => ?_⟩
    exact (hpast hcutoff).trans_le (Nat.sub_le_sub_right hs.clock _)
  collected key hkey := (h.collected key hkey).moves hs hspent
  read hcutoff ident hident hread row' hrow' hid key hkey hof := by
    obtain ⟨row, hrow, hsame, -⟩ := hs.assets row' hrow'
    obtain ⟨hcollected, hqueued⟩ := h.read hcutoff ident hident hread row hrow
      ((congrArg AssetIdentity.id hsame).symm.trans hid) key (hs.bucket key hkey) hof
    exact ⟨hcollected, fun n hn => hdue n key hkey (hqueued n hn)⟩

theorem Swept.moves {an : ℕ × ℕ} (h : Swept N s an) (hs : Loses s s')
    (hspent : ∀ a, Spent N s a → Spent N' s' a)
    (hdue : ∀ n, ∀ key ∈ s'.bucket, Due N s n key → Due N' s' n key)
    (hheld : ∀ g ∈ N', ∀ ident ∈ g.asset, ident.id ≠ an.1) : Swept N' s' an where
  spent := hspent _ h.spent
  rows row' hrow' hid := by
    obtain ⟨row, hrow, hsame, -⟩ := hs.assets row' hrow'
    exact h.rows row hrow ((congrArg AssetIdentity.id hsame).symm.trans hid)
  held := hheld
  objects key hkey hof := hdue _ key hkey (h.objects key (hs.bucket key hkey) hof)

/-- What a step has to show that adds no row, file or object: what it adds to
the notes, the cleanups and the assets dropped. -/
theorem Accounted.moves (h : Accounted N s) (hs : Loses s s')
    (hspent : ∀ a, Spent N s a → Spent N' s' a)
    (hdue : ∀ n, ∀ key ∈ s'.bucket, Due N s n key → Due N' s' n key)
    (howed : ∀ row ∈ s'.assets, ∀ key ∈ s'.bucket, key.assetId? = some row.id →
      ∀ g ∈ N, key ∈ g.owed → (∃ f ∈ s'.files, f.storageKey = key) ∨ ∃ g' ∈ N', key ∈ g'.owed)
    (hcleanups : ∀ n keys, (n, JobItem.cleanupKeys keys) ∈ s'.jobs ++ s'.failed →
      (n, JobItem.cleanupKeys keys) ∈ s.jobs ++ s.failed ∨ ∀ key ∈ keys, Condemned N' s' key)
    (hswept : ∀ an ∈ s'.reconciled,
      an ∈ s.reconciled ∧ (∀ g ∈ N', ∀ ident ∈ g.asset, ident.id ≠ an.1) ∨ Swept N' s' an)
    (hdrawn : (N'.filterMap Doing.drawn).Nodup)
    (hnotes : ∀ g ∈ N', g ∈ N ∨ g.Holding N' s' ∧ g.Sweeping N' s') : Accounted N' s' where
  ids := hs.ids h.ids
  rows row' hrow' := by
    obtain ⟨row, hrow, hsame, -⟩ := hs.assets row' hrow'
    rw [hsame]
    exact ⟨hspent _ (h.rows row hrow).1, (h.rows row hrow).2⟩
  files f hf := by
    obtain ⟨hold, hstill⟩ := hs.files f hf
    obtain ⟨row, hrow, hid, hderived⟩ := h.files f hold
    obtain ⟨row', hrow', hid'⟩ := hstill ⟨row, hrow, hid⟩
    obtain ⟨row₁, hrow₁, hsame, -⟩ := hs.assets row' hrow'
    have hone : row₁ = row :=
      h.unique hrow₁ hrow ((congrArg AssetIdentity.id hsame).symm.trans (hid'.trans hid.symm))
    refine ⟨row', hrow', hid', ?_⟩
    rw [hsame, hone]
    exact hderived
  objects key hkey a ha := by
    obtain ⟨hbelow, hrows⟩ := h.objects key (hs.bucket key hkey) a ha
    refine ⟨hbelow.trans_le hs.nextUuid, fun row' hrow' hid => ?_⟩
    obtain ⟨row, hrow, hsame, -⟩ := hs.assets row' hrow'
    rcases hrows row hrow ((congrArg AssetIdentity.id hsame).symm.trans hid) with
      horiginal | ⟨f, hf, hfile⟩ | ⟨g, hg, hold⟩
    · exact .inl (horiginal.trans (congrArg AssetIdentity.storageKey hsame).symm)
    · refine .inr (.inl ⟨f, hs.kept f hf ⟨row', hrow', ?_⟩, hfile⟩)
      have hof := h.file hf
      rw [hfile, ha] at hof
      exact hid.trans (Option.some.inj hof)
    · exact .inr (howed row' hrow' key hkey (ha.trans (congrArg some hid.symm)) g hg hold)
  cleanups n keys hjob := by
    rcases hcleanups n keys hjob with hold | hnew
    · exact fun key hkey => (h.cleanups n keys hold key hkey).moves hs hspent
    · exact hnew
  swept an han := by
    rcases hswept an han with ⟨hold, hheld⟩ | hnew
    · exact (h.swept an hold).moves hs hspent hdue hheld
    · exact hnew
  drawn := hdrawn
  holding g hg := by
    rcases hnotes g hg with hold | hnew
    · exact (h.holding g hold).moves hs hspent
    · exact hnew.1
  sweeping g hg := by
    rcases hnotes g hg with hold | hnew
    · exact (h.sweeping g hold).moves hs hspent hdue
    · exact hnew.2

end Moves

/-! What each operation does to the accounts. -/

/-- No job of an asset is in progress after its grace period. -/
def Punctual (N : Multiset Doing) (s : MediaStore) : Prop :=
  ∀ g ∈ N, ∀ a ∈ g.call.assetId?, ∀ row ∈ s.assets, row.id = a →
    ∀ deletedAt ∈ row.deletedAt, s.clock ≤ deletedAt + gracePeriodMs

section Steps

variable {N : Multiset Doing} {s s' : MediaStore} {g g' : Doing}

/-- The asset that a call holds is not past its grace period. -/
theorem Accounted.held_punctual (h : Accounted N s) (hgrace : Punctual N s) (hg : g ∈ N)
    {ident : AssetIdentity} (hident : ident ∈ g.asset) {row : AssetRow} (hrow : row ∈ s.assets)
    (hid : row.id = ident.id) {d : ℕ} (hd : row.deletedAt = some d) :
    ¬ d < s.clock - gracePeriodMs := by
  have hjob := ((h.holding g hg).held ident hident).1
  have hclock := hgrace g hg ident.id hjob row hrow hid d hd
  omega

/-- A step of one call that adds no row, file, object, cleanup or dropped asset. -/
theorem Accounted.advances (h : Accounted (g ::ₘ N) s) (hs : Loses s s')
    (hspent : ∀ a, Spent (g ::ₘ N) s a → Spent (g' ::ₘ N) s' a)
    (hjobs : ∀ n keys, (n, JobItem.cleanupKeys keys) ∈ s'.jobs ++ s'.failed ↔
      (n, JobItem.cleanupKeys keys) ∈ s.jobs ++ s.failed)
    (hreconciled : s'.reconciled = s.reconciled) (hcall : g'.call = g.call)
    (hleft : ∀ key ∈ s'.bucket, key ∈ g.left → key ∈ g'.left)
    (howed : ∀ row ∈ s'.assets, ∀ key ∈ s'.bucket, key.assetId? = some row.id → key ∈ g.owed →
      (∃ f ∈ s'.files, f.storageKey = key) ∨ key ∈ g'.owed)
    (hasset : ∀ ident ∈ g'.asset, ∀ an ∈ s.reconciled, ident.id ≠ an.1)
    (hdrawn : ((g' ::ₘ N).filterMap Doing.drawn).Nodup)
    (hholding : g'.Holding (g' ::ₘ N) s')
    (hsweeping : (∀ n, ∀ key ∈ s'.bucket, Due (g ::ₘ N) s n key → Due (g' ::ₘ N) s' n key) →
      g'.Sweeping (g' ::ₘ N) s') : Accounted (g' ::ₘ N) s' := by
  have hdue : ∀ n, ∀ key ∈ s'.bucket, Due (g ::ₘ N) s n key → Due (g' ::ₘ N) s' n key := by
    rintro n key hkey (⟨keys, hjob, hmem⟩ | ⟨x, hx, hcleanup, hmem⟩)
    · exact .inl ⟨keys, (hjobs n keys).mpr hjob, hmem⟩
    · rcases Multiset.mem_cons.mp hx with rfl | hx
      · exact .inr ⟨g', Multiset.mem_cons_self _ _, hcall ▸ hcleanup, hleft key hkey hmem⟩
      · exact .inr ⟨x, Multiset.mem_cons_of_mem hx, hcleanup, hmem⟩
  refine h.moves hs hspent hdue ?_ (fun n keys hjob => .inl ((hjobs n keys).mp hjob)) ?_ hdrawn ?_
  · intro row hrow key hkey hof x hx hmem
    rcases Multiset.mem_cons.mp hx with rfl | hx
    · exact (howed row hrow key hkey hof hmem).imp_right fun hmem =>
        ⟨g', Multiset.mem_cons_self _ _, hmem⟩
    · exact .inr ⟨x, Multiset.mem_cons_of_mem hx, hmem⟩
  · intro an han
    rw [hreconciled] at han
    refine .inl ⟨han, fun x hx ident hident => ?_⟩
    rcases Multiset.mem_cons.mp hx with rfl | hx
    · exact hasset ident hident an han
    · exact (h.swept an han).held x (Multiset.mem_cons_of_mem hx) ident hident
  · intro x hx
    rcases Multiset.mem_cons.mp hx with rfl | hx
    · exact .inr ⟨hholding, hsweeping hdue⟩
    · exact .inl (Multiset.mem_cons_of_mem hx)

/-- A statement that the notes say nothing of. -/
theorem Accounted.frame (h : Accounted (g ::ₘ N) s) (hs : Loses s s')
    (hjobs : ∀ n keys, (n, JobItem.cleanupKeys keys) ∈ s'.jobs ++ s'.failed ↔
      (n, JobItem.cleanupKeys keys) ∈ s.jobs ++ s.failed)
    (hreconciled : s'.reconciled = s.reconciled) : Accounted (g ::ₘ N) s' := by
  have hg := Multiset.mem_cons_self g N
  have hspent : ∀ a, Spent (g ::ₘ N) s a → Spent (g ::ₘ N) s' a :=
    fun a ha => ⟨ha.1.trans_le hs.nextUuid, ha.2⟩
  exact h.advances hs hspent hjobs hreconciled rfl (fun _ _ h => h) (fun _ _ _ _ _ h => .inr h)
    (fun ident hident an han => (h.swept an han).held g hg ident hident) h.drawn
    ((h.holding g hg).moves hs hspent) ((h.sweeping g hg).moves hs hspent)

/-- A step that changes only what the call has listed, read and collected. -/
theorem Accounted.lists (h : Accounted (g ::ₘ N) s) (hs : Loses s s') (hjobs : s'.jobs = s.jobs)
    (hfailed : s'.failed = s.failed) (hreconciled : s'.reconciled = s.reconciled)
    (hcall : g'.call = g.call)
    (hleft : g'.left = g.left) (howed : g'.owed = g.owed) (hasset : g'.asset = g.asset)
    (hdrawn : g'.drawn = g.drawn)
    (hsweeping : (∀ a, Spent (g ::ₘ N) s a → Spent (g' ::ₘ N) s' a) →
      (∀ n, ∀ key ∈ s'.bucket, Due (g ::ₘ N) s n key → Due (g' ::ₘ N) s' n key) →
      g'.Sweeping (g' ::ₘ N) s') : Accounted (g' ::ₘ N) s' := by
  have hg := Multiset.mem_cons_self g N
  have hspent : ∀ a, Spent (g ::ₘ N) s a → Spent (g' ::ₘ N) s' a := by
    refine fun a ha => ⟨ha.1.trans_le hs.nextUuid, fun x hx => ?_⟩
    rcases Multiset.mem_cons.mp hx with rfl | hx
    · rw [hdrawn]
      exact ha.2 g hg
    · exact ha.2 x (Multiset.mem_cons_of_mem hx)
  have hholding := (h.holding g hg).moves hs hspent
  refine h.advances hs hspent (fun n keys => by rw [hjobs, hfailed]) hreconciled hcall
    (fun _ _ hmem => hleft ▸ hmem)
      (fun _ _ _ _ _ hmem => .inr (howed ▸ hmem)) ?_ ?_ ⟨?_, ?_, ?_, ?_⟩ (hsweeping hspent)
  · rw [hasset]
    exact fun ident hident an han => (h.swept an han).held g hg ident hident
  · have hsame : (g' ::ₘ N).filterMap Doing.drawn = (g ::ₘ N).filterMap Doing.drawn := by
      simp only [Multiset.filterMap_cons, hdrawn]
    rw [hsame]
    exact h.drawn
  · rw [hasset, hcall]
    exact hholding.held
  · rw [hdrawn, howed]
    exact hholding.draws
  · rw [hasset, hdrawn, howed]
    exact hholding.owes
  · rw [hcall]
    exact hholding.job

/-- A fresh id. -/
theorem Accounted.draw (h : Accounted (g ::ₘ N) s) (hdrawn : g.drawn = none) (howed : g.owed = []) :
    Accounted ({ g with drawn := some s.nextUuid } ::ₘ N) { s with nextUuid :=
    s.nextUuid + 1 } := by
  have hg := Multiset.mem_cons_self g N
  have hs : Loses s { s with nextUuid := s.nextUuid + 1 } :=
    loses_same rfl rfl (fun _ h => h) (Nat.le_succ _) le_rfl
  have hspent : ∀ a, Spent (g ::ₘ N) s a →
      Spent ({ g with drawn := some s.nextUuid } ::ₘ N) { s with nextUuid :=
        s.nextUuid + 1 } a := by
    refine fun a ha => ⟨ha.1.trans_le (Nat.le_succ _), fun x hx => ?_⟩
    rcases Multiset.mem_cons.mp hx with rfl | hx
    · exact fun hnext => ha.1.ne' (Option.some.inj hnext)
    · exact ha.2 x (Multiset.mem_cons_of_mem hx)
  have hholding := (h.holding g hg).moves hs hspent
  refine h.advances hs hspent (fun _ _ => Iff.rfl) rfl rfl (fun _ _ hmem => hmem)
    (fun _ _ _ _ _ hmem => .inr hmem)
    (fun ident hident an han => (h.swept an han).held g hg ident hident) ?_
    ⟨hholding.held, ?_, ?_, hholding.job⟩ fun hdue => ?_
  · have hnew : ({ g with drawn := some s.nextUuid } ::ₘ N).filterMap Doing.drawn =
        s.nextUuid ::ₘ N.filterMap Doing.drawn := Multiset.filterMap_cons_some _ _ _ rfl
    rw [hnew]
    refine Multiset.nodup_cons.mpr ⟨fun hmem => ?_, ?_⟩
    · obtain ⟨x, hx, hnext⟩ := (Multiset.mem_filterMap _ _).mp hmem
      exact ((h.holding x (Multiset.mem_cons_of_mem hx)).draws _ hnext).1.false
    · have hothers := h.drawn
      rw [Multiset.filterMap_cons_none _ _ hdrawn] at hothers
      exact hothers
  · rintro a ⟨⟩
    exact ⟨Nat.lt_succ_self _, fun key hkey hof => ((h.objects key hkey _ hof).1.false).elim⟩
  · intro key hkey
    rw [show ({ g with drawn := some s.nextUuid } : Doing).owed = [] from howed] at hkey
    cases hkey
  · have hsweeping := (h.sweeping g hg).moves hs hspent hdue
    exact ⟨hsweeping.cutoff, hsweeping.listed, hsweeping.collected, hsweeping.read⟩

/-- The asset that a job reads. -/
theorem Accounted.hold {assetId : ℕ} (h : Accounted (g ::ₘ N) s)
    (hcall : g.call.assetId? = some assetId)
    (howed : g.owed = []) :
    Accounted ({ g with asset :=
    (s.getByIdUnscoped assetId).map AssetRow.toAssetIdentity } ::ₘ N) s := by
  have hg := Multiset.mem_cons_self g N
  have hs : Loses s s := loses_same rfl rfl (fun _ h => h) le_rfl le_rfl
  have hspent : ∀ a, Spent (g ::ₘ N) s a →
      Spent ({ g with asset := (s.getByIdUnscoped assetId).map AssetRow.toAssetIdentity } ::ₘ N)
        s a := by
    refine fun a ha => ⟨ha.1, fun x hx => ?_⟩
    rcases Multiset.mem_cons.mp hx with rfl | hx
    · exact ha.2 g hg
    · exact ha.2 x (Multiset.mem_cons_of_mem hx)
  have hread : ∀ ident ∈ (s.getByIdUnscoped assetId).map AssetRow.toAssetIdentity,
      ∃ row ∈ s.assets, row.id = assetId ∧ row.toAssetIdentity = ident := by
    intro ident hident
    obtain ⟨row, hrow, rfl⟩ := Option.map_eq_some_iff.mp hident
    have hid := List.find?_some (p := fun a : AssetRow => a.id = assetId ∧ a.deletedAt = none) hrow
    exact ⟨row, List.mem_of_find?_eq_some hrow, (of_decide_eq_true hid).1, rfl⟩
  have hholding := (h.holding g hg).moves hs hspent
  refine h.advances hs hspent (fun _ _ => Iff.rfl) rfl rfl (fun _ _ hmem => hmem)
    (fun _ _ _ _ _ hmem => .inr hmem)
    (fun ident hident an han => ?_) ?_ ⟨fun ident hident => ?_, hholding.draws, ?_,
      hholding.job⟩ fun hdue => ?_
  · obtain ⟨row, hrow, -, rfl⟩ := hread ident hident
    exact (h.swept an han).rows row hrow
  · have hothers := h.drawn
    simp only [Multiset.filterMap_cons] at hothers ⊢
    exact hothers
  · obtain ⟨row, hrow, hid, rfl⟩ := hread ident hident
    refine ⟨hcall.trans (congrArg some hid.symm), hspent _ (h.rows row hrow).1,
      fun other hother hsame => ?_⟩
    rw [h.unique hother hrow hsame]
  · intro key hkey
    rw [show ({ g with asset := _ } : Doing).owed = [] from howed] at hkey
    cases hkey
  · have hsweeping := (h.sweeping g hg).moves hs hspent hdue
    exact ⟨hsweeping.cutoff, hsweeping.listed, hsweeping.collected, hsweeping.read⟩

/-- Objects are removed from the bucket, and from what is owed or left. -/
theorem Accounted.removeObjects (h : Accounted (g ::ₘ N) s) (keys : List StorageKey) :
    Accounted (g.without keys ::ₘ N) (s.deleteKeys keys) := by
  have hg := Multiset.mem_cons_self g N
  have hbucket : ∀ key, key ∈ (s.deleteKeys keys).bucket ↔ key ∈ s.bucket ∧ key ∉ keys := by
    intro key
    rw [MediaStore.deleteKeys, List.mem_filter, decide_eq_true_eq]
  have hkept : ∀ key ∈ (s.deleteKeys keys).bucket, ∀ all : List StorageKey, key ∈ all →
      key ∈ all.filter (fun k => k ∉ keys) :=
    fun key hkey all hmem => List.mem_filter.mpr ⟨hmem, decide_eq_true ((hbucket key).mp hkey).2⟩
  have hs : Loses s (s.deleteKeys keys) :=
    loses_same rfl rfl (fun key hkey => ((hbucket key).mp hkey).1) le_rfl le_rfl
  have hspent : ∀ a, Spent (g ::ₘ N) s a → Spent (g.without keys ::ₘ N) (s.deleteKeys keys) a := by
    refine fun a ha => ⟨ha.1, fun x hx => ?_⟩
    rcases Multiset.mem_cons.mp hx with rfl | hx
    · exact ha.2 g hg
    · exact ha.2 x (Multiset.mem_cons_of_mem hx)
  have hholding := (h.holding g hg).moves hs hspent
  refine h.advances hs hspent (fun _ _ => Iff.rfl) rfl rfl
    (fun key hkey hmem => hkept key hkey _ hmem)
    (fun _ _ key hkey _ hmem => .inr (hkept key hkey _ hmem))
    (fun ident hident an han => (h.swept an han).held g hg ident hident) ?_
    ⟨hholding.held, fun a ha => ?_, fun key hkey => ?_, hholding.job⟩ fun hdue => ?_
  · have hothers := h.drawn
    simp only [Multiset.filterMap_cons] at hothers ⊢
    exact hothers
  · obtain ⟨hbelow, hobjects⟩ := hholding.draws a ha
    exact ⟨hbelow, fun key hkey hof => hkept key hkey _ (hobjects key hkey hof)⟩
  · exact hholding.owes key (List.mem_of_mem_filter hkey)
  · have hsweeping := (h.sweeping g hg).moves hs hspent hdue
    exact ⟨hsweeping.cutoff, hsweeping.listed, hsweeping.collected, hsweeping.read⟩

/-- The row of a derivative is refused: its asset is gone, and with it what is owed. -/
theorem Accounted.refuseFile {ident : AssetIdentity} (h : Accounted (g ::ₘ N) s)
    (hdrawn : g.drawn = none)
    (hident : ident ∈ g.asset) (hgone : s.hasAsset ident.id = false) :
    Accounted ({ g with owed := [] } ::ₘ N) s := by
  have hg := Multiset.mem_cons_self g N
  have hs : Loses s s := loses_same rfl rfl (fun _ h => h) le_rfl le_rfl
  have hspent : ∀ a, Spent (g ::ₘ N) s a → Spent ({ g with owed := [] } ::ₘ N) s a := by
    refine fun a ha => ⟨ha.1, fun x hx => ?_⟩
    rcases Multiset.mem_cons.mp hx with rfl | hx
    · exact ha.2 g hg
    · exact ha.2 x (Multiset.mem_cons_of_mem hx)
  have hholding := (h.holding g hg).moves hs hspent
  refine h.advances hs hspent (fun _ _ => Iff.rfl) rfl rfl (fun _ _ hmem => hmem)
    (fun row hrow key _ hof hmem => ?_)
    (fun ident hident an han => (h.swept an han).held g hg ident hident) ?_
    ⟨hholding.held, fun a ha => ?_, fun key hkey => absurd hkey List.not_mem_nil, hholding.job⟩
    fun hdue => ?_
  · rcases (h.holding g hg).of_owed hmem hof with ⟨other, hother, hid⟩ | hnew
    · cases hident.symm.trans hother
      have hthere : s.hasAsset ident.id = true :=
        List.any_eq_true.mpr ⟨row, hrow, decide_eq_true hid.symm⟩
      rw [hgone] at hthere
      cases hthere
    · rw [hdrawn] at hnew
      cases hnew
  · have hothers := h.drawn
    simp only [Multiset.filterMap_cons] at hothers ⊢
    exact hothers
  · rw [show ({ g with owed := [] } : Doing).drawn = none from hdrawn] at ha
    cases ha
  · have hsweeping := (h.sweeping g hg).moves hs hspent hdue
    exact ⟨hsweeping.cutoff, hsweeping.listed, hsweeping.collected, hsweeping.read⟩

/-- An id is drawn by one call. -/
theorem Accounted.drawn_apart (h : Accounted (g ::ₘ N) s) {a : ℕ} (hg : g.drawn = some a) :
    ∀ x ∈ N, x.drawn ≠ some a := by
  intro x hx hsame
  have hnodup := h.drawn
  rw [Multiset.filterMap_cons_some _ _ _ hg] at hnodup
  exact (Multiset.nodup_cons.mp hnodup).1 ((Multiset.mem_filterMap _ _).mpr ⟨x, hx, hsame⟩)

theorem Accounted.one_draws (h : Accounted N s) {a : ℕ} (hg : g ∈ N) (hg' : g' ∈ N)
    (ha : g.drawn = some a)
    (ha' : g'.drawn = some a) : g = g' := by
  obtain ⟨M, rfl⟩ := Multiset.exists_cons_of_mem hg
  rcases Multiset.mem_cons.mp hg' with rfl | hg'
  · rfl
  · exact absurd ha' (h.drawn_apart ha g' hg')

/-- The row of an object is owed. -/
theorem Accounted.owe {key : StorageKey} (h : Accounted (g ::ₘ N) s) (howns : g.Owns key) :
    Accounted (g.put key ::ₘ N) s := by
  have hg := Multiset.mem_cons_self g N
  rw [Doing.put]
  split
  · rename_i hsome
    have hs : Loses s s := loses_same rfl rfl (fun _ h => h) le_rfl le_rfl
    have hspent :
      ∀ a, Spent (g ::ₘ N) s a → Spent ({ g with owed := g.owed ++ [key] } ::ₘ N) s a := by
      refine fun a ha => ⟨ha.1, fun x hx => ?_⟩
      rcases Multiset.mem_cons.mp hx with rfl | hx
      · exact ha.2 g hg
      · exact ha.2 x (Multiset.mem_cons_of_mem hx)
    have hholding := (h.holding g hg).moves hs hspent
    refine h.advances hs hspent (fun _ _ => Iff.rfl) rfl rfl (fun _ _ hmem => hmem)
      (fun _ _ _ _ _ hmem => .inr (List.mem_append_left _ hmem))
      (fun ident hident an han => (h.swept an han).held g hg ident hident) ?_
      ⟨hholding.held, fun a ha => ?_, fun k hk => ?_, hholding.job⟩ fun hdue => ?_
    · have hothers := h.drawn
      simp only [Multiset.filterMap_cons] at hothers ⊢
      exact hothers
    · obtain ⟨hbelow, hobjects⟩ := hholding.draws a ha
      exact ⟨hbelow, fun k hk hof => List.mem_append_left _ (hobjects k hk hof)⟩
    · rcases List.mem_append.mp hk with hk | hk
      · exact hholding.owes k hk
      · rw [List.mem_singleton.mp hk]
        obtain ⟨a, ha⟩ := Option.isSome_iff_exists.mp hsome
        exact ⟨a, ha, howns a ha⟩
    · have hsweeping := (h.sweeping g hg).moves hs hspent hdue
      exact ⟨hsweeping.cutoff, hsweeping.listed, hsweeping.collected, hsweeping.read⟩
  · exact h

/-- An object whose row is owed is put. Nothing of its id is condemned or
dropped, and no call has read the asset for its deletion. -/
theorem Accounted.putObject {key : StorageKey} (h : Accounted N s) (hgrace : Punctual N s)
    (howed : key.assetId?.isSome = true → ∃ g ∈ N, key ∈ g.owed) : Accounted N (s.putFile key) := by
  have hbucket : ∀ k, k ∈ (s.putFile key).bucket → k ∈ s.bucket ∨ k = key := by
    intro k hk
    rw [MediaStore.putFile] at hk
    exact (List.mem_append.mp hk).imp (fun hk => List.mem_of_mem_filter hk) List.mem_singleton.mp
  have hown : ∀ a, key.assetId? = some a →
      ∃ g ∈ N, key ∈ g.owed ∧ ((∃ ident ∈ g.asset, ident.id = a) ∨ g.drawn = some a) := by
    intro a ha
    obtain ⟨g, hg, hmem⟩ := howed (ha ▸ rfl)
    exact ⟨g, hg, hmem, (h.holding g hg).of_owed hmem ha⟩
  refine ⟨h.ids, h.rows, h.files, fun k hk a ha => ?_, h.cleanups, fun an han => ?_, h.drawn,
    fun x hx => ?_,
    fun x hx => ?_⟩
  · rcases hbucket k hk with hk | rfl
    · exact h.objects k hk a ha
    · obtain ⟨g, hg, hmem, hof⟩ := hown a ha
      refine ⟨?_, fun row hrow hid => .inr (.inr ⟨g, hg, hmem⟩)⟩
      rcases hof with ⟨ident, hident, rfl⟩ | hfresh
      · exact ((h.holding g hg).held ident hident).2.1.1
      · exact ((h.holding g hg).draws a hfresh).1
  · have hold := h.swept an han
    refine ⟨hold.spent, hold.rows, hold.held, fun k hk hof => ?_⟩
    rcases hbucket k hk with hk | rfl
    · exact hold.objects k hk hof
    · obtain ⟨g, hg, -, ⟨ident, hident, hid⟩ | hfresh⟩ := hown _ hof
      · exact absurd hid (hold.held g hg ident hident)
      · exact absurd hfresh (hold.spent.2 g hg)
  · have hold := h.holding x hx
    refine ⟨hold.held, fun a ha => ⟨(hold.draws a ha).1, fun k hk hof => ?_⟩, hold.owes, hold.job⟩
    rcases hbucket k hk with hk | rfl
    · exact (hold.draws a ha).2 k hk hof
    · obtain ⟨g, hg, hmem, ⟨ident, hident, rfl⟩ | hfresh⟩ := hown a hof
      · exact absurd ha (((h.holding g hg).held ident hident).2.1.2 x hx)
      · rw [h.one_draws hx hg ha hfresh]
        exact hmem
  · have hold := h.sweeping x hx
    refine ⟨hold.cutoff, hold.listed, hold.collected,
      fun hcutoff ident hident hread row hrow hid k hk hof => ?_⟩
    rcases hbucket k hk with hk | rfl
    · exact hold.read hcutoff ident hident hread row hrow hid k hk hof
    · obtain ⟨hspent, -, hrows⟩ := hold.listed ident hident
      obtain ⟨-, d, hd, hpast⟩ := hrows row hrow hid
      obtain ⟨g, hg, -, ⟨other, hother, hsame⟩ | hfresh⟩ := hown _ hof
      · exact absurd (hpast hcutoff)
          (h.held_punctual hgrace hg hother hrow (hid.trans hsame.symm) hd)
      · exact absurd hfresh (hspent.2 g hg)

/-- The asset is there, and nothing is owed for it. -/
def Doing.settle (g : Doing) : Doing :=
  { g with
    drawn := none
    owed := [] }

/-- The row of the asset that a call brings, whose object is all that it owes. -/
theorem Accounted.insertAsset {row : AssetRow} (h : Accounted (g ::ₘ N) s)
    (hdrawn : g.drawn = some row.id)
    (hkey : row.storageKey.assetId? = some row.id) (howed : ∀ key ∈ g.owed, key = row.storageKey) :
    Accounted (g.settle ::ₘ N) (s.insertAsset row) := by
  have hg := Multiset.mem_cons_self g N
  have hrow : ∀ a ∈ (s.insertAsset row).assets, a ∈ s.assets ∨ a = row := by
    intro a ha
    rw [MediaStore.insertAsset] at ha
    exact (List.mem_append.mp ha).imp_right List.mem_singleton.mp
  have hfresh : ∀ a, Spent (g ::ₘ N) s a → row.id ≠ a :=
    fun a ha hid => ha.2 g hg (hdrawn.trans (congrArg some hid))
  have hothers : ∀ x ∈ g.settle ::ₘ N, ∀ a, x.drawn = some a → x ∈ N := by
    intro x hx a ha
    rcases Multiset.mem_cons.mp hx with rfl | hx
    · cases ha
    · exact hx
  have hspent : ∀ a, Spent (g ::ₘ N) s a → Spent (g.settle ::ₘ N) (s.insertAsset row) a :=
    fun a ha => ⟨ha.1, fun x hx hx' => ha.2 x (Multiset.mem_cons_of_mem (hothers x hx a hx')) hx'⟩
  have hnow : Spent (g.settle ::ₘ N) (s.insertAsset row) row.id :=
    ⟨((h.holding g hg).draws _ hdrawn).1,
      fun x hx hx' => h.drawn_apart hdrawn x (hothers x hx _ hx') hx'⟩
  have hcondemned :
    ∀ k, Condemned (g ::ₘ N) s k → Condemned (g.settle ::ₘ N) (s.insertAsset row) k := by
    refine fun k hk a ha => ⟨hspent a (hk a ha).1, fun b hb hid => ?_⟩
    rcases hrow b hb with hb | rfl
    · exact (hk a ha).2 b hb hid
    · exact absurd hid (hfresh a (hk a ha).1)
  have hdue : ∀ n k, Due (g ::ₘ N) s n k → Due (g.settle ::ₘ N) (s.insertAsset row) n k := by
    rintro n k (hjob | ⟨x, hx, hcleanup, hmem⟩)
    · exact .inl hjob
    · rcases Multiset.mem_cons.mp hx with rfl | hx
      · exact .inr ⟨_, Multiset.mem_cons_self _ _, hcleanup, hmem⟩
      · exact .inr ⟨x, Multiset.mem_cons_of_mem hx, hcleanup, hmem⟩
  have hheld :
    ∀ x ∈ g ::ₘ N, ∀ ident ∈ x.asset, x.call.assetId? = some ident.id ∧
    Spent (g.settle ::ₘ N) (s.insertAsset row) ident.id ∧
        ∀ b ∈ (s.insertAsset row).assets, b.id = ident.id → b.toAssetIdentity = ident := by
    intro x hx ident hident
    obtain ⟨hcall, hold, hrows⟩ := (h.holding x hx).held ident hident
    refine ⟨hcall, hspent _ hold, fun b hb hid => ?_⟩
    rcases hrow b hb with hb | rfl
    · exact hrows b hb hid
    · exact absurd hid (hfresh _ hold)
  have hsweeping :
    ∀ x : Doing, x.Sweeping (g ::ₘ N) s → x.Sweeping (g.settle ::ₘ N) (s.insertAsset row) := by
    refine fun x hx =>
      ⟨hx.cutoff, fun ident hident => ?_, fun k hk => hcondemned k (hx.collected k hk), ?_⟩
    · obtain ⟨hold, hof, hrows⟩ := hx.listed ident hident
      refine ⟨hspent _ hold, hof, fun b hb hid => ?_⟩
      rcases hrow b hb with hb | rfl
      · exact hrows b hb hid
      · exact absurd hid (hfresh _ hold)
    · intro hcutoff ident hident hread b hb hid k hk hof
      rcases hrow b hb with hb | rfl
      · obtain ⟨hcollected, hqueued⟩ := hx.read hcutoff ident hident hread b hb hid k hk hof
        exact ⟨hcollected, fun n hn => hdue n k (hqueued n hn)⟩
      · exact absurd hid (hfresh _ (hx.listed ident hident).1)
  refine ⟨?_, fun a ha => ?_, fun f hf => ?_,
    fun k hk a ha => ⟨(h.objects k hk a ha).1, fun b hb hid => ?_⟩,
    fun n keys hjob k hk => hcondemned k (h.cleanups n keys hjob k hk), fun an han =>
      ?_, ?_, fun x hx => ?_,
    fun x hx => ?_⟩
  · rw [MediaStore.insertAsset, List.map_append, List.nodup_append]
    refine ⟨h.ids, List.nodup_singleton _, fun a ha b hb hab => ?_⟩
    obtain ⟨old, hold, rfl⟩ := List.mem_map.mp ha
    exact hfresh _ (h.rows old hold).1 ((List.mem_singleton.mp hb).symm.trans hab.symm)
  · rcases hrow a ha with ha | rfl
    · exact ⟨hspent _ (h.rows a ha).1, (h.rows a ha).2⟩
    · exact ⟨hnow, hkey⟩
  · obtain ⟨a, ha, hid, hderived⟩ := h.files f hf
    exact ⟨a, List.mem_append_left _ ha, hid, hderived⟩
  · rcases hrow b hb with hb | rfl
    · rcases (h.objects k hk a ha).2 b hb hid with horiginal | hfile | ⟨x, hx, hmem⟩
      · exact .inl horiginal
      · exact .inr (.inl hfile)
      · rcases Multiset.mem_cons.mp hx with rfl | hx
        · rw [howed k hmem, hkey] at ha
          exact absurd ((Option.some.inj ha).trans hid.symm) (hfresh _ (h.rows b hb).1)
        · exact .inr (.inr ⟨x, Multiset.mem_cons_of_mem hx, hmem⟩)
    · refine .inl (howed k (((h.holding g hg).draws _ hdrawn).2 k hk ?_))
      rw [hid]
      exact ha
  · have hold := h.swept an han
    refine ⟨hspent _ hold.spent, fun b hb hid => ?_, fun x hx => ?_,
      fun k hk hof => hdue _ k (hold.objects k hk hof)⟩
    · rcases hrow b hb with hb | rfl
      · exact hold.rows b hb hid
      · exact hfresh _ hold.spent hid
    · rcases Multiset.mem_cons.mp hx with rfl | hx
      · exact hold.held g hg
      · exact hold.held x (Multiset.mem_cons_of_mem hx)
  · rw [Multiset.filterMap_cons_none _ _ rfl]
    have hnodup := h.drawn
    rw [Multiset.filterMap_cons_some _ _ _ hdrawn] at hnodup
    exact (Multiset.nodup_cons.mp hnodup).2
  · rcases Multiset.mem_cons.mp hx with rfl | hx
    · exact ⟨hheld g hg, fun a ha => absurd ha (Option.not_mem_none a),
        fun key hkey => absurd hkey List.not_mem_nil,
        fun n keys hcall k hk => hcondemned k ((h.holding g hg).job n keys hcall k hk)⟩
    · have hmem : x ∈ g ::ₘ N := Multiset.mem_cons_of_mem hx
      have hold := h.holding x hmem
      exact ⟨hheld x hmem, hold.draws, hold.owes,
        fun n keys hcall k hk => hcondemned k (hold.job n keys hcall k hk)⟩
  · rcases Multiset.mem_cons.mp hx with rfl | hx
    · have hold := hsweeping g (h.sweeping g hg)
      exact ⟨hold.cutoff, hold.listed, hold.collected, hold.read⟩
    · exact hsweeping x (h.sweeping x (Multiset.mem_cons_of_mem hx))

/-- The row of a derivative, instead of the one there was. -/
theorem Accounted.insertFile {ident : AssetIdentity} {type : AssetFileType} (h : Accounted N s)
    (hg : g ∈ N)
    (hident : ident ∈ g.asset) (hthere : s.hasAsset ident.id = true) :
    Accounted N (s.upsertFile (derivative ident type)) := by
  obtain ⟨-, -, hrows⟩ := (h.holding g hg).held ident hident
  obtain ⟨row, hrow, hid⟩ := List.any_eq_true.mp hthere
  replace hid := of_decide_eq_true hid
  have hkept : ∀ k, (∃ f ∈ s.files, f.storageKey = k) →
      ∃ f ∈ (s.upsertFile (derivative ident type)).files, f.storageKey = k := by
    rintro k ⟨f, hf, rfl⟩
    by_cases hover : f.assetId = ident.id ∧ f.type = type
    · -- The row that is replaced has the same key.
      obtain ⟨a, ha, haid, hderived⟩ := h.files f hf
      refine ⟨derivative ident type, List.mem_append_right _ (List.mem_singleton.mpr rfl), ?_⟩
      rw [congrArg FileRow.storageKey hderived, hrows a ha (haid.trans hover.1), hover.2]
    · exact ⟨f, List.mem_append_left _ (List.mem_filter.mpr ⟨hf, decide_eq_true hover⟩), rfl⟩
  refine ⟨h.ids, h.rows, fun f hf => ?_, fun k hk a ha => ?_, h.cleanups,
    fun an han => ⟨(h.swept an han).spent, (h.swept an han).rows, (h.swept an han).held,
      (h.swept an han).objects⟩, h.drawn, fun x hx =>
        ⟨(h.holding x hx).held, (h.holding x hx).draws,
      (h.holding x hx).owes, (h.holding x hx).job⟩, fun x hx => ⟨(h.sweeping x hx).cutoff,
      (h.sweeping x hx).listed, (h.sweeping x hx).collected, (h.sweeping x hx).read⟩⟩
  · rcases List.mem_append.mp hf with hf | hf
    · exact h.files f (List.mem_of_mem_filter hf)
    · rw [List.mem_singleton.mp hf]
      exact ⟨row, hrow, hid, by rw [hrows row hrow hid]; rfl⟩
  · obtain ⟨hbelow, hobjects⟩ := h.objects k hk a ha
    exact ⟨hbelow, fun b hb hb' => (hobjects b hb hb').imp_right (Or.imp_left (hkept k))⟩

/-- What has a row is owed no longer. -/
theorem Accounted.pay {file : FileRow} (h : Accounted (g ::ₘ N) s) (hdrawn : g.drawn = none)
    (hfile : file ∈ s.files) :
    Accounted ({ g with owed := g.owed.filter (fun key => key ≠ file.storageKey) } ::ₘ N) s := by
  have hg := Multiset.mem_cons_self g N
  have hs : Loses s s := loses_same rfl rfl (fun _ h => h) le_rfl le_rfl
  have hspent : ∀ a, Spent (g ::ₘ N) s a →
      Spent ({ g with owed := g.owed.filter (fun key => key ≠ file.storageKey) } ::ₘ N) s a := by
    refine fun a ha => ⟨ha.1, fun x hx => ?_⟩
    rcases Multiset.mem_cons.mp hx with rfl | hx
    · exact ha.2 g hg
    · exact ha.2 x (Multiset.mem_cons_of_mem hx)
  have hholding := (h.holding g hg).moves hs hspent
  refine h.advances hs hspent (fun _ _ => Iff.rfl) rfl rfl (fun _ _ hmem => hmem)
    (fun row _ key _ _ hmem => ?_)
    (fun ident hident an han => (h.swept an han).held g hg ident hident) ?_
    ⟨hholding.held, fun a ha => ?_, fun key hkey => hholding.owes key (List.mem_of_mem_filter hkey),
      hholding.job⟩ fun hdue => ?_
  · by_cases hpaid : key = file.storageKey
    · exact .inl ⟨file, hfile, hpaid.symm⟩
    · exact .inr (List.mem_filter.mpr ⟨hmem, decide_eq_true hpaid⟩)
  · have hothers := h.drawn
    simp only [Multiset.filterMap_cons] at hothers ⊢
    exact hothers
  · exact absurd (hdrawn.symm.trans ha) nofun
  · have hsweeping := (h.sweeping g hg).moves hs hspent hdue
    exact ⟨hsweeping.cutoff, hsweeping.listed, hsweeping.collected, hsweeping.read⟩

/-- The clock is read for the cutoff. -/
theorem Accounted.readClock (h : Accounted (g ::ₘ N) s) (hlisted : g.listed = []) :
    Accounted ({ g with cutoff := some (s.clock - gracePeriodMs) } ::ₘ N) s := by
  have hg := Multiset.mem_cons_self g N
  have hs : Loses s s := loses_same rfl rfl (fun _ h => h) le_rfl le_rfl
  refine h.lists hs rfl rfl rfl rfl rfl rfl rfl rfl fun hspent hdue => ?_
  have hold := (h.sweeping g hg).moves hs hspent hdue
  refine ⟨fun c hc => (Option.some.inj hc).ge, fun ident hident => ?_, hold.collected,
    fun _ ident hident => ?_⟩
  · rw [show ({ g with cutoff := _ } : Doing).listed = [] from hlisted] at hident
    cases hident
  · rw [show ({ g with cutoff := _ } : Doing).listed = [] from hlisted] at hident
    cases hident

/-- The assets that a deletion takes are deleted now. -/
theorem Accounted.delete (h : Accounted (g ::ₘ N) s) (hcutoff : g.cutoff = none) (eventId : ℕ)
    (ids : List ℕ) :
    Accounted ({ g with listed :=
    (s.softDeleteMany eventId ids).1.map AssetRow.toAssetIdentity } ::ₘ N)
      (s.softDeleteMany eventId ids).2 := by
  have hg := Multiset.mem_cons_self g N
  have hs : Loses s (s.softDeleteMany eventId ids).2 := loses_softDeleteMany eventId ids
  refine h.lists hs rfl rfl rfl rfl rfl rfl rfl rfl fun hspent hdue => ?_
  have hold := (h.sweeping g hg).moves hs hspent hdue
  refine ⟨hold.cutoff, fun ident hident => ?_, hold.collected, fun hsome => absurd hcutoff hsome⟩
  obtain ⟨a, ha, rfl⟩ := List.mem_map.mp hident
  obtain ⟨row, hrow, rfl⟩ := List.mem_map.mp ha
  obtain ⟨hmem, htaken⟩ := List.mem_filter.mp hrow
  refine ⟨hspent _ (h.rows row hmem).1, (h.rows row hmem).2, fun row' hrow' hid => ?_⟩
  obtain ⟨other, hother, rfl⟩ := List.mem_map.mp hrow'
  have hids : other.id = row.id := by
    split at hid
    · exact hid
    · exact hid
  rw [h.unique hother hmem hids, if_pos htaken]
  exact ⟨rfl, s.clock, rfl, fun hsome => absurd hcutoff hsome⟩

/-- The assets past their grace period are listed. -/
theorem Accounted.list {cutoff : ℕ} (h : Accounted (g ::ₘ N) s) (hread : g.read = [])
    (hcutoff : g.cutoff = some cutoff) :
    Accounted ({ g with
      listed :=
      (s.assets.filter (fun a => past cutoff a.deletedAt)).map AssetRow.toAssetIdentity } ::ₘ
      N) s := by
  have hg := Multiset.mem_cons_self g N
  have hs : Loses s s := loses_same rfl rfl (fun _ h => h) le_rfl le_rfl
  refine h.lists hs rfl rfl rfl rfl rfl rfl rfl rfl fun hspent hdue => ?_
  have hold := (h.sweeping g hg).moves hs hspent hdue
  refine ⟨hold.cutoff, fun ident hident => ?_, hold.collected, fun _ ident _ hmem => ?_⟩
  · obtain ⟨row, hrow, rfl⟩ := List.mem_map.mp hident
    obtain ⟨hmem, hpast⟩ := List.mem_filter.mp hrow
    refine ⟨hspent _ (h.rows row hmem).1, (h.rows row hmem).2, fun other hother hid => ?_⟩
    rw [h.unique hother hmem hid]
    cases hd : row.deletedAt with
    | none =>
      rw [hd] at hpast
      cases hpast
    | some d =>
      rw [hd] at hpast
      have hlt : d < cutoff := of_decide_eq_true hpast
      exact ⟨rfl, d, rfl, fun _ => hlt.trans_le ((h.sweeping g hg).cutoff cutoff hcutoff)⟩
  · rw [show ({ g with listed := _ } : Doing).read = [] from hread] at hmem
    cases hmem

/-- The files of a listed asset are read, and its keys collected. -/
theorem Accounted.gather (h : Accounted (g ::ₘ N) s) (hgrace : Punctual (g ::ₘ N) s)
    (hqueued : g.queued = none)
    (assetId : ℕ) : Accounted (g.gather assetId (s.getFiles assetId) ::ₘ N) s := by
  have hg := Multiset.mem_cons_self g N
  have hs : Loses s s := loses_same rfl rfl (fun _ h => h) le_rfl le_rfl
  have hfile : ∀ f, f ∈ s.getFiles assetId ↔ f ∈ s.files ∧ f.assetId = assetId := by
    intro f
    rw [getFiles, List.mem_filter, decide_eq_true_eq]
  have hkey : ∀ key, key ∈ (g.gather assetId (s.getFiles assetId)).collected ↔ key ∈ g.collected ∨
      ∃ ident ∈ g.listed, ident.id = assetId ∧
        (key = ident.storageKey ∨ ∃ f ∈ s.files, f.assetId = assetId ∧ f.storageKey = key) := by
    intro key
    simp only [Doing.gather, List.mem_append, List.mem_flatMap, List.mem_filter, decide_eq_true_eq,
      List.mem_cons,
      List.mem_map, hfile, and_assoc]
  refine h.lists hs rfl rfl rfl rfl rfl rfl rfl rfl fun hspent hdue => ?_
  have hold := (h.sweeping g hg).moves hs hspent hdue
  refine ⟨hold.cutoff, hold.listed, fun key hmem => ?_,
    fun hcutoff ident hident hread row hrow hid key hmem hof => ?_⟩
  · rcases (hkey key).mp hmem with hmem | ⟨ident, hident, rfl, hfrom⟩
    · exact hold.collected key hmem
    · have hof : key.assetId? = some ident.id := by
        rcases hfrom with rfl | ⟨f, hf, hid, rfl⟩
        · exact (hold.listed ident hident).2.1
        · rw [h.file hf, hid]
      intro a ha
      cases hof.symm.trans ha
      refine ⟨(hold.listed ident hident).1, fun row hrow hid => ?_⟩
      obtain ⟨-, d, hd, -⟩ := (hold.listed ident hident).2.2 row hrow hid
      rw [hd]
      exact Option.some_ne_none d
  · refine ⟨(hkey key).mpr ?_, fun n hn => absurd (hqueued.symm.trans hn)
      (Option.some_ne_none n).symm⟩
    rcases List.mem_cons.mp hread with hhere | hread
    · obtain ⟨hsame, d, hd, hpast⟩ := (hold.listed ident hident).2.2 row hrow hid
      refine .inr ⟨ident, hident, hhere, ?_⟩
      rcases (h.objects key hmem _ hof).2 row hrow hid with horiginal | ⟨f, hf, hf'⟩ |
        ⟨x, hx, howed⟩
      · rw [hsame] at horiginal
        exact .inl horiginal
      · have hfof := h.file hf
        rw [hf', hof] at hfof
        exact .inr ⟨f, hf, (Option.some.inj hfof).symm.trans hhere, hf'⟩
      · rcases (h.holding x hx).of_owed howed hof with ⟨other, hother, hsame'⟩ | hfresh
        · exact absurd (hpast hcutoff)
            (h.held_punctual hgrace hx hother hrow (hid.trans hsame'.symm) hd)
        · exact absurd hfresh (((h.sweeping g hg).listed ident hident).1.2 x hx)
    · exact .inl (hold.read hcutoff ident hident hread row hrow hid key hmem hof).1

/-- A cleanup of what was collected is queued. -/
theorem Accounted.queueCleanup {keys : List StorageKey} (h : Accounted (g ::ₘ N) s)
    (hkeys : ∀ key, key ∈ keys ↔ key ∈ g.collected) :
    Accounted ({ g with queued := some s.nextJob } ::ₘ N) (s.queue (.cleanupKeys keys)) := by
  have hg := Multiset.mem_cons_self g N
  have hs : Loses s (s.queue (.cleanupKeys keys)) := loses_same rfl rfl (fun _ h => h) le_rfl le_rfl
  have hjobs : ∀ j, j ∈ (s.queue (.cleanupKeys keys)).jobs ++ (s.queue (.cleanupKeys keys)).failed ↔
      j ∈ s.jobs ++ s.failed ∨ j = (s.nextJob, JobItem.cleanupKeys keys) := by
    intro j
    simp only [queue, List.mem_append, List.mem_singleton]
    exact or_right_comm
  have hspent : ∀ a, Spent (g ::ₘ N) s a →
      Spent ({ g with queued := some s.nextJob } ::ₘ N) (s.queue (.cleanupKeys keys)) a := by
    refine fun a ha => ⟨ha.1, fun x hx => ?_⟩
    rcases Multiset.mem_cons.mp hx with rfl | hx
    · exact ha.2 g hg
    · exact ha.2 x (Multiset.mem_cons_of_mem hx)
  have hdue : ∀ n, ∀ key ∈ (s.queue (.cleanupKeys keys)).bucket, Due (g ::ₘ N) s n key →
      Due ({ g with queued := some s.nextJob } ::ₘ N) (s.queue (.cleanupKeys keys)) n key := by
    rintro n key - (⟨all, hjob, hmem⟩ | ⟨x, hx, hcleanup, hmem⟩)
    · exact .inl ⟨all, (hjobs _).mpr (.inl hjob), hmem⟩
    · rcases Multiset.mem_cons.mp hx with rfl | hx
      · exact .inr ⟨_, Multiset.mem_cons_self _ _, hcleanup, hmem⟩
      · exact .inr ⟨x, Multiset.mem_cons_of_mem hx, hcleanup, hmem⟩
  have hold := (h.sweeping g hg).moves hs hspent hdue
  have hholding := (h.holding g hg).moves hs hspent
  refine h.moves hs hspent hdue (fun _ _ key _ _ x hx hmem => .inr ?_) (fun n all hjob => ?_)
    (fun an han => .inl ⟨han, fun x hx => ?_⟩) ?_ fun x hx => ?_
  · rcases Multiset.mem_cons.mp hx with rfl | hx
    · exact ⟨_, Multiset.mem_cons_self _ _, hmem⟩
    · exact ⟨x, Multiset.mem_cons_of_mem hx, hmem⟩
  · rcases (hjobs _).mp hjob with hjob | hnew
    · exact .inl hjob
    · cases hnew
      exact .inr fun key hkey => hold.collected key ((hkeys key).mp hkey)
  · rcases Multiset.mem_cons.mp hx with rfl | hx
    · exact (h.swept an han).held g hg
    · exact (h.swept an han).held x (Multiset.mem_cons_of_mem hx)
  · have hothers := h.drawn
    simp only [Multiset.filterMap_cons] at hothers ⊢
    exact hothers
  · rcases Multiset.mem_cons.mp hx with rfl | hx
    · refine .inr ⟨⟨hholding.held, hholding.draws, hholding.owes, hholding.job⟩, hold.cutoff,
        hold.listed,
        hold.collected, fun hcutoff ident hident hread row hrow hid key hmem hof => ?_⟩
      have hcollected := (hold.read hcutoff ident hident hread row hrow hid key hmem hof).1
      refine ⟨hcollected, ?_⟩
      rintro n ⟨⟩
      exact .inl ⟨keys, (hjobs _).mpr (.inr rfl), (hkeys key).mpr hcollected⟩
    · exact .inl (Multiset.mem_cons_of_mem hx)

/-- The listed assets are dropped once their cleanup is queued. -/
theorem Accounted.drop {job : ℕ} (h : Accounted (g ::ₘ N) s) (hgrace : Punctual (g ::ₘ N) s)
    (hqueued : g.queued = some job) (hcutoff : g.cutoff ≠ none)
    (hread : ∀ ident ∈ g.listed, ident.id ∈ g.read) :
    Accounted (g ::ₘ N) (s.deleteAssets (g.listed.map AssetIdentity.id) job) := by
  have hg := Multiset.mem_cons_self g N
  have hs : Loses s (s.deleteAssets (g.listed.map AssetIdentity.id) job) := loses_deleteAssets _ _
  refine h.moves hs (fun a ha => ha) (fun _ _ _ hdue => hdue)
    (fun _ _ _ _ _ x hx hmem => .inr ⟨x, hx, hmem⟩)
    (fun n all hjob => .inl hjob) (fun an han => ?_) h.drawn fun x hx => .inl hx
  rcases List.mem_append.mp han with han | hnew
  · exact .inl ⟨han, (h.swept an han).held⟩
  · obtain ⟨row, hrow, rfl⟩ := List.mem_map.mp hnew
    obtain ⟨hmem, hlisted⟩ := List.mem_filter.mp hrow
    obtain ⟨ident, hident, hid⟩ := List.mem_map.mp (of_decide_eq_true hlisted)
    obtain ⟨hspent, -, hrows⟩ := (h.sweeping g hg).listed ident hident
    obtain ⟨-, d, hd, hpast⟩ := hrows row hmem hid.symm
    refine .inr ⟨(h.rows row hmem).1, fun row' hrow' hsame => ?_, fun x hx other hother hsame => ?_,
      fun key hkey hof => ?_⟩
    · have hgone := of_decide_eq_true (List.mem_filter.mp hrow').2
      exact hgone (hsame ▸ of_decide_eq_true hlisted)
    · exact h.held_punctual hgrace hx hother hmem hsame.symm hd (hpast hcutoff)
    · have hof' : key.assetId? = some ident.id := hof.trans (congrArg some hid.symm)
      exact ((h.sweeping g hg).read hcutoff ident hident (hread ident hident) row hmem hid.symm key
        hkey hof').2
        job hqueued

end Steps

/-! A call starts, performs an operation, and returns. -/

section Moving

variable {N : Multiset Doing} {s s' : MediaStore} {g : Doing}

/-- A statement that the constraints may refuse, and that the notes say nothing of. -/
theorem Accounted.stated {after : Except MediaError MediaStore} (h : Accounted (g ::ₘ N) s)
    (hafter : ∀ s', after = .ok s' → Loses s s' ∧ s'.jobs = s.jobs ∧ s'.failed = s.failed ∧
      s'.reconciled = s.reconciled) : Accounted (g ::ₘ N) (Media.stated after s).2 := by
  cases after with
  | error e => exact h
  | ok s' =>
    obtain ⟨hs, hjobs, hfailed, hreconciled⟩ := hafter s' rfl
    exact h.frame hs (fun n keys => by rw [Media.stated, hjobs, hfailed]) hreconciled

/-- A column that the accounts say nothing of. -/
theorem Accounted.aside (h : Accounted (g ::ₘ N) s) (hassets : s'.assets = s.assets)
    (hfiles : s'.files = s.files)
    (hbucket : s'.bucket = s.bucket) (hjobs : s'.jobs = s.jobs) (hfailed : s'.failed = s.failed)
    (hreconciled : s'.reconciled = s.reconciled) (hnext : s.nextUuid ≤ s'.nextUuid)
    (hclock : s.clock = s'.clock) :
    Accounted (g ::ₘ N) s' :=
  h.frame (loses_same hassets hfiles (fun _ hkey => hbucket ▸ hkey) hnext hclock.le)
    (fun n keys => by rw [hjobs, hfailed]) hreconciled

theorem onAsset_cases (assetId : ℕ) (e : MediaError) (after : MediaStore) :
    s.hasAsset assetId = true ∧ s.onAsset assetId e after = .ok after ∨
      s.hasAsset assetId = false ∧ s.onAsset assetId e after = .error e := by
  rw [onAsset]
  cases s.hasAsset assetId with
  | true => exact .inl ⟨rfl, rfl⟩
  | false => exact .inr ⟨rfl, rfl⟩

/-- A statement about an asset that succeeds has done what it is for. -/
theorem eq_of_onAsset {assetId : ℕ} {e : MediaError} {after : MediaStore}
    (h : s.onAsset assetId e after = .ok s') : s' = after := by
  rcases onAsset_cases (s := s) assetId e after with ⟨-, hdone⟩ | ⟨-, hrefused⟩
  · exact (Except.ok.inj (hdone.symm.trans h)).symm
  · cases hrefused.symm.trans h

theorem create_cases (row : AssetRow) :
    s.create row = .ok (s.insertAsset row) ∨ ∃ e, s.create row = .error e := by
  rw [MediaStore.create]
  split
  · exact .inr ⟨_, rfl⟩
  · split
    · exact .inl rfl
    · exact .inr ⟨_, rfl⟩

theorem Accounted.upserts {dto : ParticipantUpsert} (h : Accounted (g ::ₘ N) s) :
    Accounted (g ::ₘ N) (mediaHandler (.upsertParticipant dto) (.ok 0) s).2 := by
  rw [mediaHandler, MediaStore.upsertParticipant]
  cases s.participants.find? (fun g =>
      g.eventId = dto.eventId ∧ g.email.toLower = dto.email.toLower ∧ g.deletedAt = none) with
  | some row => exact h.aside rfl rfl rfl rfl rfl rfl le_rfl rfl
  | none =>
    cases hevent : s.hasEvent dto.eventId with
    | true => exact h.aside rfl rfl rfl rfl rfl rfl (Nat.le_succ _) rfl
    | false => exact h

/-- The rows that a statement answers with are rows of the table. -/
theorem Accounted.answers_agree (h : Accounted N s) {rows : List AssetRow}
    (hrows : ∀ a ∈ rows, ∃ row ∈ s.assets, a.toAssetIdentity = row.toAssetIdentity) :
    ∀ a ∈ rows, ∀ b ∈ rows, a.id = b.id → a.toAssetIdentity = b.toAssetIdentity := by
  intro a ha b hb hab
  obtain ⟨row, hrow, hsame⟩ := hrows a ha
  obtain ⟨other, hother, hsame'⟩ := hrows b hb
  rw [hsame, hsame', h.unique hrow hother]
  exact (congrArg AssetIdentity.id hsame).symm.trans (hab.trans (congrArg AssetIdentity.id hsame'))

theorem Accounted.puts {key : StorageKey} {r : MediaRes (.putFile key)}
    (h : Accounted (g ::ₘ N) s) (hpermit : g.Permits (.putFile key))
    (hgrace : Punctual (g ::ₘ N) s)
    (hok : succeeds ⟨.putFile key, (mediaHandler (.putFile key) r s).1⟩ = true) :
    consistent ⟨.putFile key, (mediaHandler (.putFile key) r s).1⟩ ∧
      Accounted (g.note ⟨.putFile key, (mediaHandler (.putFile key) r s).1⟩ ::ₘ N)
        (mediaHandler (.putFile key) r s).2 := by
  cases r with
  | error e => cases hok
  | ok _ =>
    have howed := h.owe hpermit
    have hcall : (g.put key).call = g.call := by
      rw [Doing.put]
      split <;> rfl
    have hput : Punctual (g.put key ::ₘ N) s := by
      intro x hx
      rcases Multiset.mem_cons.mp hx with rfl | hx
      · rw [hcall]
        exact hgrace g (Multiset.mem_cons_self _ _)
      · exact hgrace x (Multiset.mem_cons_of_mem hx)
    refine ⟨trivial, howed.putObject hput fun hsome => ⟨_, Multiset.mem_cons_self _ _, ?_⟩⟩
    rw [Doing.put, if_pos hsome]
    exact List.mem_append_right _ (List.mem_singleton.mpr rfl)

theorem Accounted.upsertsFile {file : FileRow} {r : MediaRes (.upsertFile file)}
    (h : Accounted (g ::ₘ N) s) (hpermit : g.Permits (.upsertFile file)) :
    consistent ⟨.upsertFile file, (mediaHandler (.upsertFile file) r s).1⟩ ∧
      Accounted (g.note ⟨.upsertFile file, (mediaHandler (.upsertFile file) r s).1⟩ ::ₘ N)
        (mediaHandler (.upsertFile file) r s).2 := by
  obtain ⟨hdrawn, ident, hident, type, rfl⟩ := hpermit
  refine ⟨trivial, ?_⟩
  change Accounted
    (g.note ⟨.upsertFile (derivative ident type), (Media.stated (s.onAsset ident.id foreignKey
    (s.upsertFile (derivative ident type))) s).1⟩ ::ₘ N)
      (Media.stated (s.onAsset ident.id foreignKey
    (s.upsertFile (derivative ident type))) s).2
  rcases onAsset_cases (s := s) ident.id foreignKey (s.upsertFile (derivative ident type)) with
    ⟨hthere, hdone⟩ | ⟨hgone, hrefused⟩
  · rw [hdone]
    have hmem : derivative ident type ∈ (s.upsertFile (derivative ident type)).files :=
      List.mem_append_right _ (List.mem_singleton.mpr rfl)
    exact (h.insertFile (Multiset.mem_cons_self _ _) hident hthere).pay hdrawn hmem
  · rw [hrefused]
    exact h.refuseFile hdrawn hident hgone

theorem Accounted.performs {o : MediaOp} {r : MediaRes o} (h : Accounted (g ::ₘ N) s)
    (hpermit : g.Permits o)
    (hgrace : Punctual (g ::ₘ N) s) (hok : succeeds ⟨o, (mediaHandler o r s).1⟩ = true) :
    consistent ⟨o, (mediaHandler o r s).1⟩ ∧
      Accounted (g.note ⟨o, (mediaHandler o r s).1⟩ ::ₘ N) (mediaHandler o r s).2 := by
  cases o with
  | getActiveEvent slug =>
    have hsame : (mediaHandler (.getActiveEvent slug) r s).2 = s := by
      cases r with
      | error e => rfl
      | ok _ => cases hevent : s.getBySlug slug <;> simp [mediaHandler, hevent]
    rw [hsame]
    exact ⟨trivial, h⟩
  | randomUUID => exact ⟨trivial, h.draw hpermit.1 hpermit.2⟩
  | putFile key => exact h.puts hpermit hgrace hok
  | create row =>
    refine ⟨trivial, ?_⟩
    change Accounted (g.note ⟨.create row, (Media.stated (s.create row) s).1⟩ ::ₘ N)
      (Media.stated (s.create row) s).2
    rcases create_cases (s := s) row with hcreated | ⟨e, hrefused⟩
    · rw [hcreated]
      exact h.insertAsset hpermit.1 hpermit.2.1 hpermit.2.2
    · rw [hrefused]
      exact h
  | deleteKeys keys =>
    cases r with
    | error e => cases hok
    | ok _ => exact ⟨trivial, h.removeObjects keys⟩
  | listObjects pfx cursor => cases r <;> exact ⟨trivial, h⟩
  | queue job =>
    refine ⟨trivial, ?_⟩
    cases job with
    | cleanupKeys keys => exact h.queueCleanup hpermit
    | _ =>
      refine h.frame (loses_same rfl rfl (fun _ hkey => hkey) le_rfl le_rfl) (fun n keys => ?_) rfl
      simp [mediaHandler, queue]
  | getByIdUnscoped assetId => exact ⟨trivial, h.hold hpermit.1 hpermit.2⟩
  | downloadToFile key =>
    refine ⟨trivial, ?_⟩
    rw [mediaHandler]
    split <;> exact h
  | upsertExif assetId =>
    refine ⟨trivial, h.stated fun s' hs' => ?_⟩
    rw [eq_of_onAsset hs']
    exact ⟨loses_same rfl rfl (fun _ hkey => hkey) le_rfl le_rfl, rfl, rfl, rfl⟩
  | updateCapturedAt assetId =>
    refine ⟨trivial, h.stated fun s' hs' => ?_⟩
    rw [eq_of_onAsset hs']
    exact ⟨loses_same rfl rfl (fun _ hkey => hkey) le_rfl le_rfl, rfl, rfl, rfl⟩
  | upsertFile file => exact h.upsertsFile hpermit
  | updateProcessed assetId =>
    refine ⟨trivial, h.stated fun s' hs' => ?_⟩
    rw [eq_of_onAsset hs']
    exact ⟨loses_setStatus _ _, rfl, rfl, rfl⟩
  | setStatus assetId status =>
    exact ⟨trivial, h.frame (loses_setStatus _ _) (fun _ _ => Iff.rfl) rfl⟩
  | getFiles assetId => exact ⟨trivial, h.gather hgrace hpermit assetId⟩
  | setThumbnailKey personId key => exact ⟨trivial, h.aside rfl rfl rfl rfl rfl rfl le_rfl rfl⟩
  | upsertParticipant dto => exact ⟨trivial, h.upserts⟩
  | replaceSelfies participantId keys =>
    refine ⟨trivial, h.stated fun s' hs' => ?_⟩
    rw [MediaStore.replaceSelfies] at hs'
    split at hs'
    · cases hs'
      exact ⟨loses_same rfl rfl (fun _ hkey => hkey) le_rfl le_rfl, rfl, rfl, rfl⟩
    · cases hs'
  | markItem importItemId status assetId =>
    exact ⟨trivial, h.aside rfl rfl rfl rfl rfl rfl le_rfl rfl⟩
  | softDeleteMany eventId ids =>
    refine ⟨h.answers_agree fun a ha => ?_, h.delete hpermit.2.2.2 eventId ids⟩
    obtain ⟨row, hrow, rfl⟩ := List.mem_map.mp ha
    exact ⟨row, List.mem_of_mem_filter hrow, rfl⟩
  | now => exact ⟨trivial, h.readClock hpermit⟩
  | deletedAssets cutoff =>
    exact ⟨h.answers_agree fun a ha => ⟨a, List.mem_of_mem_filter ha, rfl⟩,
      h.list hpermit.1 hpermit.2.2.2⟩
  | deleteAssets ids job =>
    obtain ⟨rfl, hqueued, hcutoff, hread⟩ := hpermit
    exact ⟨trivial, h.drop hgrace hqueued hcutoff hread⟩
  | deleteEvents ids => exact ⟨trivial, h.frame (loses_dropEvents ids) (fun _ _ => Iff.rfl) rfl⟩
  | hardDelete orgId eventId =>
    refine ⟨trivial, h.frame (loses_hardDelete orgId eventId) (fun n keys => ?_) ?_⟩
    · rw [mediaHandler, MediaStore.hardDelete]
      split <;> exact Iff.rfl
    · rw [mediaHandler, MediaStore.hardDelete]
      split <;> rfl
  | _ => exact ⟨trivial, h⟩

theorem note_call (g : Doing) (e : MediaEvent) : (g.note e).call = g.call := by
  unfold Doing.note
  split <;> first | rfl | (split <;> first | rfl | (unfold Doing.put; split <;> rfl))

theorem notes_call (t : MediaThread) : (t.notes doing Doing.first).call = t.call := by
  have hkept : ∀ (past : List MediaEvent) (g : Doing), (past.foldl doing.note g).call = g.call := by
    intro past
    induction past with
    | nil => exact fun _ => rfl
    | cons e past ih => exact fun g => (ih _).trans (note_call g e)
  exact hkept t.past _

theorem punctual_of_inGrace {p : MediaPool} (h : InGrace p) :
    Punctual (notesOf doing Doing.first p.threads) p.state := by
  intro g hg a ha row hrow hid d hd
  obtain ⟨t, ht, rfl⟩ := mem_notesOf.mp hg
  rw [notes_call] at ha
  exact h t ht a ha row hrow hid d hd

/-- A job that starts answers for what it is to delete. -/
theorem Accounted.starts {c : MediaCall} {fuel : ℕ} (h : Accounted N s)
    (haccept : (mediaServer fuel).accept c s = some s') : Accounted (Doing.first c ::ₘ N) s' := by
  have hfields :
    s'.assets = s.assets ∧ s'.files = s.files ∧ s'.bucket = s.bucket ∧ s'.failed = s.failed ∧
      s'.reconciled = s.reconciled ∧ s'.nextUuid = s.nextUuid ∧ s.clock ≤ s'.clock := by
    cases c with
    | job n item =>
      simp only [mediaServer] at haccept
      split at haccept
      · cases haccept
        exact ⟨rfl, rfl, rfl, rfl, rfl, rfl, le_rfl⟩
      · cases haccept
    | elapse ms =>
      cases haccept
      exact ⟨rfl, rfl, rfl, rfl, rfl, rfl, Nat.le_add_right _ _⟩
    | _ =>
      cases haccept
      exact ⟨rfl, rfl, rfl, rfl, rfl, rfl, le_rfl⟩
  have htaken : ∀ n keys, (n, JobItem.cleanupKeys keys) ∈ s.jobs →
      (n, JobItem.cleanupKeys keys) ∈ s'.jobs ∨ c = .job n (.cleanupKeys keys) := by
    intro n keys hjob
    cases c with
    | job m item =>
      simp only [mediaServer] at haccept
      split at haccept
      · cases haccept
        by_cases hthis : (n, JobItem.cleanupKeys keys) = (m, item)
        · cases hthis
          exact .inr rfl
        · exact .inl (List.mem_filter.mpr ⟨hjob, decide_eq_true hthis⟩)
      · cases haccept
    | _ =>
      cases haccept
      exact .inl hjob
  have hwaiting :
    ∀ n keys, (n, JobItem.cleanupKeys keys) ∈ s'.jobs → (n, JobItem.cleanupKeys keys) ∈ s.jobs := by
    intro n keys hjob
    cases c with
    | job m item =>
      simp only [mediaServer] at haccept
      split at haccept
      · cases haccept
        exact List.mem_of_mem_filter hjob
      · cases haccept
    | _ =>
      cases haccept
      exact hjob
  have hthere :
    ∀ n keys, c = .job n (.cleanupKeys keys) → (n, JobItem.cleanupKeys keys) ∈ s.jobs := by
    rintro n keys rfl
    simp only [mediaServer] at haccept
    split at haccept
    · assumption
    · cases haccept
  obtain ⟨hassets, hfiles, hbucket, hfailed, hreconciled, hnext, hclock⟩ := hfields
  have hs : Loses s s' := loses_same hassets hfiles (fun _ hkey => hbucket ▸ hkey) hnext.ge hclock
  have hspent : ∀ a, Spent N s a → Spent (Doing.first c ::ₘ N) s' a := by
    refine fun a ha => ⟨hnext ▸ ha.1, fun x hx => ?_⟩
    rcases Multiset.mem_cons.mp hx with rfl | hx
    · exact fun hdrawn => by cases hdrawn
    · exact ha.2 x hx
  refine h.moves hs hspent ?_
    (fun _ _ _ _ _ x hx hmem => .inr ⟨x, Multiset.mem_cons_of_mem hx, hmem⟩) ?_ ?_ ?_ ?_
  · rintro n key - (⟨keys, hjob, hmem⟩ | ⟨x, hx, hcleanup, hmem⟩)
    · rcases List.mem_append.mp hjob with hjob | hjob
      · rcases htaken n keys hjob with hjob | rfl
        · exact .inl ⟨keys, List.mem_append_left _ hjob, hmem⟩
        · exact .inr ⟨_, Multiset.mem_cons_self _ _, ⟨keys, rfl⟩, hmem⟩
      · exact .inl ⟨keys, List.mem_append_right _ (hfailed ▸ hjob), hmem⟩
    · exact .inr ⟨x, Multiset.mem_cons_of_mem hx, hcleanup, hmem⟩
  · intro n keys hjob
    refine .inl ?_
    rcases List.mem_append.mp hjob with hjob | hjob
    · exact List.mem_append_left _ (hwaiting n keys hjob)
    · exact List.mem_append_right _ (hfailed ▸ hjob)
  · intro an han
    rw [hreconciled] at han
    refine .inl ⟨han, fun x hx => ?_⟩
    rcases Multiset.mem_cons.mp hx with rfl | hx
    · exact fun ident hident => by cases hident
    · exact (h.swept an han).held x hx
  · rw [Multiset.filterMap_cons_none _ _ rfl]
    exact h.drawn
  · intro x hx
    rcases Multiset.mem_cons.mp hx with rfl | hx
    · refine .inr ⟨⟨fun ident hident => absurd hident (Option.not_mem_none ident),
        fun a ha => absurd ha (Option.not_mem_none a),
        fun key hkey => absurd hkey List.not_mem_nil, fun n keys hcall key hkey => ?_⟩,
        fun d hd => absurd hd (Option.not_mem_none d),
        fun ident hident => absurd hident List.not_mem_nil,
        fun key hkey => absurd hkey List.not_mem_nil, fun hcutoff => absurd rfl hcutoff⟩
      have hjob := List.mem_append_left s.failed (hthere n keys hcall)
      exact (h.cleanups n keys hjob key hkey).moves hs hspent
    · exact .inl hx

/-- A call that returns leaves nothing unaccounted for. -/
theorem Accounted.leaves {c : MediaCall} {reply : MediaReply} {again : Bool} {fuel : ℕ}
    (h : Accounted (g ::ₘ N) s) (hfinished : Finished c reply g)
    (hrelease : (mediaServer fuel).release c reply again s = some s') : Accounted N s' := by
  obtain ⟨hcall, hleft, howed, hdone⟩ := hfinished
  have hg := Multiset.mem_cons_self g N
  have hsame : Loses s s' ∧ s'.reconciled = s.reconciled ∧ s.nextUuid ≤ s'.nextUuid ∧
      ∀ n keys, (n, JobItem.cleanupKeys keys) ∈ s'.jobs ++ s'.failed ↔
        (n, JobItem.cleanupKeys keys) ∈ s.jobs ++ s.failed := by
    cases c with
    | job n item =>
      simp only [mediaServer] at hrelease
      split at hrelease
      · rename_i hfails
        have hother : ∀ m keys, (m, JobItem.cleanupKeys keys) ≠ (n, item) := by
          intro m keys hsame
          cases hsame
          rw [hdone n keys rfl] at hfails
          cases hfails
        split at hrelease
        · cases hrelease
          refine ⟨loses_same rfl rfl (fun _ hkey => hkey) le_rfl le_rfl, rfl, le_rfl,
            fun m keys => ?_⟩
          simp [hother m keys]
        · cases hrelease
          refine ⟨loses_same rfl rfl (fun _ hkey => hkey) le_rfl le_rfl, rfl, le_rfl,
            fun m keys => ?_⟩
          simp [hother m keys]
      · cases hrelease
        exact ⟨loses_same rfl rfl (fun _ hkey => hkey) le_rfl le_rfl, rfl, le_rfl,
          fun _ _ => Iff.rfl⟩
    | _ =>
      cases hrelease
      exact ⟨loses_same rfl rfl (fun _ hkey => hkey) le_rfl le_rfl, rfl, le_rfl, fun _ _ => Iff.rfl⟩
  obtain ⟨hs, hreconciled, hnext, hjobs⟩ := hsame
  refine h.moves hs
    (fun a ha => ⟨ha.1.trans_le hnext, fun x hx => ha.2 x (Multiset.mem_cons_of_mem hx)⟩) ?_ ?_
    (fun n keys hjob => .inl ((hjobs n keys).mp hjob)) (fun an han => ?_) ?_
    fun x hx => .inl (Multiset.mem_cons_of_mem hx)
  · rintro n key - (⟨keys, hjob, hmem⟩ | ⟨x, hx, hcleanup, hmem⟩)
    · exact .inl ⟨keys, (hjobs n keys).mpr hjob, hmem⟩
    · rcases Multiset.mem_cons.mp hx with rfl | hx
      · rw [hleft] at hmem
        cases hmem
      · exact .inr ⟨x, hx, hcleanup, hmem⟩
  · intro row hrow key hkey hof x hx hmem
    rcases Multiset.mem_cons.mp hx with rfl | hx
    · obtain ⟨old, hold, hsame, -⟩ := hs.assets row hrow
      have hdrawn := (howed key hmem).symm.trans hof
      rw [congrArg AssetIdentity.id hsame] at hdrawn
      exact absurd hdrawn ((h.rows old hold).1.2 _ hg)
    · exact .inr ⟨x, hx, hmem⟩
  · rw [hreconciled] at han
    exact .inl ⟨han, fun x hx => (h.swept an han).held x (Multiset.mem_cons_of_mem hx)⟩
  · have hnodup := h.drawn
    rw [Multiset.filterMap_cons] at hnodup
    exact (Multiset.nodup_of_le (Multiset.le_add_left _ _) hnodup)

end Moving

theorem accounted_kept (fuel : ℕ) :
    Preserves (mediaServer fuel) Timely doing Doing.first Finished Accounted where
  accept _ _ _ _ h haccept := h.starts haccept
  perform p t N o r hnotes h hpermit htimely := by
    have hgrace := punctual_of_inGrace htimely.2
    rw [hnotes] at hgrace
    obtain ⟨hconsistent, hnext⟩ := h.performs hpermit hgrace htimely.1
    exact ⟨⟨htimely.1, hconsistent⟩, hnext⟩
  release _ _ _ _ _ _ _ h hfinished hrelease := h.leaves hfinished hrelease

/-! Deletions of assets. -/

/-- What deletions leave and take. Of an asset that a reconciliation has dropped
nothing is left once its cleanup is done, and a cleanup takes no object of a
live asset. -/
structure CleanlyDeleted (fuel : ℕ) (p : MediaPool) : Prop where
  swept : ∀ an ∈ p.state.reconciled, ¬ p.hasJob an.2 → ∀ key ∈ p.state.bucket,
    key.assetId? ≠ some an.1
  spared : ∀ m t keys r n all, (mediaServer fuel).event m p = some (t, ⟨.deleteKeys keys, r⟩) →
    t.call = .job n (.cleanupKeys all) → ∀ key ∈ keys, ¬ p.state.Referenced key

section Deletion

variable {fuel : ℕ} {p₀ p : MediaPool}

/-- A cleanup that has objects to delete waits, is in progress or was given up. -/
theorem hasJob_of_due {n : ℕ} {key : StorageKey}
    (h : Due (notesOf doing Doing.first p.threads) p.state n key) : p.hasJob n := by
  rcases h with ⟨keys, hjob, -⟩ | ⟨g, hg, ⟨keys, hcall⟩, -⟩
  · exact .inl ⟨_, hjob⟩
  · obtain ⟨t, ht, rfl⟩ := mem_notesOf.mp hg
    rw [notes_call] at hcall
    exact .inr ⟨t, ht, _, hcall⟩

end Deletion

/-! One asset, deleted while it is processed. -/

def party : EventRow := { id := 1, orgId := 2, slug := "party" }

def partyStart : MediaPool := { threads := [], state := { events := [party], nextUuid := 10 } }

def partyPhoto : Ingest.StagedUpload where
  stagingPath := "staged"
  originalFilename := "dance.jpg"
  mimeType := "image/jpeg"
  size := 9
  checksum := "abc"

/-- Every part of the work succeeds; the photo carries no time of capture. -/
def working : (o : MediaOp) → MediaRes o
  | .extractExif => .ok false
  | .fetchRemote _ => .ok ("abc", 9)
  | .getActiveEvent _ => .ok party
  | .listObjects _ _ => .ok { rows := [], next := none }
  | .upsertParticipant _ => .ok 0
  | .assertStorageAvailable _ _ | .putFile _ | .create _ | .deleteKeys _ |
    .downloadToFile _ | .work _
  | .upsertExif _ | .updateCapturedAt _ | .upsertFile _ | .updateProcessed _ |
    .replaceSelfies _ _ => .ok ()
  | .getEvent _ | .findByChecksum _ _ | .getByIdUnscoped _ | .getById _ _ | .getThumbnailData _ |
    .getItem _ => none
  | .randomUUID | .queue _ | .now => (0 : ℕ)
  | .consumeIp _ | .consumeEmail _ _ => true
  | .getFiles _ | .softDeleteMany _ _ | .deletedAssets _ | .deletedEvents _ => []
  | .setStatus _ _ | .setThumbnailKey _ _ | .markItem _ _ _ | .deleteAssets _ _ | .deleteEvents _
  | .hardDelete _ _ => ()

def mediaPerforms (i n : ℕ) : List MediaMove := List.replicate n (.perform i working)

def mediaCall (n : ℕ) (c : MediaCall) : List MediaMove :=
    .start c :: (mediaPerforms 0 n ++ [.leave 0 false])

/-- The photo is deleted while its job is at work, so that its derivatives are
put after its keys were collected. -/
def deletedAtWork : List MediaMove :=
  mediaCall 7 (.uploadAsset 1 partyPhoto) ++ [.start (.job 0 (.assetProcess 10))] ++
    mediaPerforms 0 5 ++
    [.start (.deleteMany 1 [10])] ++ mediaPerforms 1 3 ++ [.leave 1 false] ++ mediaPerforms 0 11 ++
    [.leave 0 false]

def partyKeys (folders : List Folder) : List StorageKey :=
  folders.map (fun folder =>
    { orgId := 2
      eventId := 1
      folder := folder
      id := 10
      ext := if folder = .original then ".jpg" else "" })

/-- The first cleanup, the reconciliation eight days later, and its cleanup. -/
def sweptAfter : List MediaMove :=
  mediaCall 1 (.job 1 (.cleanupKeys (partyKeys [.original]))) ++
    mediaCall 0 (.elapse (8 * 24 * 60 * 60 * 1000)) ++
    mediaCall 6 .storageReconcile ++
      mediaCall 1 (.job 4 (.cleanupKeys (partyKeys [.original, .preview, .thumb])))

end EventLens.Media
